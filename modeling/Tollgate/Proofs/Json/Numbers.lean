import Mathlib.Data.List.TakeWhile
import Mathlib.Data.Nat.Digits.Defs
import Mathlib.Data.Set.List
import Tollgate.Proofs.Json.Digits
import Tollgate.Proofs.Json.Extent

/-! # Number texts

`NumberText` has the numbers of JSON by their grammar, each with its text and with the rational
number that it denotes.  These texts are what is read as a number, each as the parts that it is made
of (`readNumeral_eq_ok_iff`), and its digits at their place are its value (`NumberText.value_eq`).
-/

namespace Tollgate.Json

/-! ## Grammar -/

structure Digits where
  list : List (Fin 10)
  nonempty : list ≠ []

inductive Sign where
  | plus
  | minus

structure PowerText where
  capital : Bool
  sign : Option Sign
  digits : Digits

structure NumberText where
  negative : Bool
  whole : Digits
  /-- A leading zero stands alone. -/
  unpadded : ∀ ds, whole.list = 0 :: ds → ds = []
  fraction : Option Digits
  power : Option PowerText

/-! ## Texts -/

def Digits.text (ds : Digits) : Octets := ds.list.map fun d : Fin 10 => UInt8.ofNat (48 + d)

def Sign.text : Sign → Octets
  | .plus => [43]
  | .minus => [45]

def PowerText.text (p : PowerText) : Octets :=
  (if p.capital then 69 else 101) :: ((p.sign.map Sign.text).getD [] ++ p.digits.text)

namespace NumberText

def powerText (n : NumberText) : Octets := (n.power.map PowerText.text).getD []

def fractionText (n : NumberText) : Octets := (n.fraction.map fun ds => 46 :: ds.text).getD []

def text (n : NumberText) : Octets :=
  (if n.negative then [45] else []) ++ (n.whole.text ++ (n.fractionText ++ n.powerText))

end NumberText

/-! ## Values -/

def Digits.value (ds : Digits) : ℕ := Nat.ofDigits 10 (ds.list.reverse.map Fin.val)

def PowerText.value (p : PowerText) : ℤ :=
  match p.sign with
  | some .minus => -p.digits.value
  | some .plus | none => p.digits.value

namespace NumberText

def fractionValue (n : NumberText) : ℚ :=
  match n.fraction with
  | some ds => ds.value / 10 ^ ds.list.length
  | none => 0

def value (n : NumberText) : ℚ :=
  (if n.negative then -1 else 1) * (n.whole.value + n.fractionValue) *
    10 ^ (n.power.map PowerText.value).getD 0

def isInteger (n : NumberText) : Bool := n.fraction.isNone && n.power.isNone

end NumberText

/-! ## Reading -/

def Digits.numbers (ds : Digits) : List ℕ := ds.list.map Fin.val

def NumberText.numeral (n : NumberText) : Numeral where
  negative := n.negative
  whole := n.whole.numbers
  fraction := (n.fraction.map Digits.numbers).getD []
  power := (n.power.map PowerText.value).getD 0
  isInteger := n.isInteger

def EndsDigits (y : Octets) : Prop := ∀ b ∈ y.head?, Octets.isDigit b = false

theorem endsDigits_nil : EndsDigits [] := by simp [EndsDigits]

namespace Digits

variable {ds : Digits} {y : Octets}

theorem isDigit_of_mem_text {b : UInt8} (member : b ∈ ds.text) : Octets.isDigit b = true := by
  have each : ∀ d : Fin 10, Octets.isDigit (UInt8.ofNat (48 + d)) = true := by decide
  obtain ⟨d, -, rfl⟩ := List.mem_map.mp member
  exact each d

theorem exists_text_eq (ds : Digits) : ∃ b s, ds.text = b :: s ∧ Octets.isDigit b = true := by
  obtain ⟨d, list, written⟩ := List.exists_cons_of_ne_nil ds.nonempty
  have text : ds.text = UInt8.ofNat (48 + d) :: list.map fun d : Fin 10 => UInt8.ofNat (48 + d) := by
    rw [Digits.text, written, List.map_cons]
  exact ⟨_, _, text, isDigit_of_mem_text (by rw [text]; exact List.mem_cons_self)⟩

theorem lt_of_mem_numbers {d : ℕ} (member : d ∈ ds.numbers) : d < 10 := by
  obtain ⟨d, -, rfl⟩ := List.mem_map.mp member
  exact d.isLt

theorem digitsNat_numbers (ds : Digits) : digitsNat ds.numbers = ds.value := by
  rw [Digits.value, List.map_reverse, Nat.ofDigits_eq_foldr, List.foldr_reverse]
  exact congrFun (congrFun (congrArg List.foldl (by funext n d; simp; ring)) 0) ds.numbers

theorem readDigits_text (ds : Digits) (ends : EndsDigits y) :
    readDigits (ds.text ++ y) = .ok (ds.numbers, y) := by
  have all : ∀ b ∈ ds.text, Octets.isDigit b = true := fun _ => isDigit_of_mem_text
  have none : y.takeWhile Octets.isDigit = [] ∧ y.dropWhile Octets.isDigit = y := by
    cases y with
    | nil => exact ⟨rfl, rfl⟩
    | cons b y =>
      have other : Octets.isDigit b = false := ends b rfl
      simp [other]
  have leading : leadingDigits (ds.text ++ y) = ds.numbers := by
    have each : ∀ d : Fin 10, (UInt8.ofNat (48 + d)).toNat - 48 = d := by decide
    rw [leadingDigits, List.takeWhile_append_of_pos all, none.1, List.append_nil, Digits.text,
      List.map_map]
    exact List.map_congr_left fun d _ => each d
  have after : afterDigits (ds.text ++ y) = y := by
    rw [afterDigits, List.dropWhile_append_of_pos all, none.2]
  obtain ⟨b, s, written, digit⟩ := ds.exists_text_eq
  rw [written, List.cons_append] at leading after ⊢
  simp only [readDigits, digit, if_true, leading, after]

end Digits

/-- Without a sign the power begins with its digits. -/
theorem readPower_of_unsigned {s : Octets} (plus : ∀ t, s ≠ 43 :: t) (minus : ∀ t, s ≠ 45 :: t) :
    readPower s =
      match readDigits s with
      | .ok (ds, s) => .ok (digitsNat ds, s)
      | .error e => .error e := by
  unfold readPower
  split
  · next t => exact absurd rfl (plus t)
  · next t => exact absurd rfl (minus t)
  · rfl

theorem PowerText.readPower?_text (p : PowerText) : readPower? p.text = .ok (some p.value, []) := by
  -- Either mark is taken, and what follows does not depend on it.
  have marked : ∀ s, readPower s = .ok (p.value, []) →
      readPower? ((if p.capital then 69 else 101) :: s) = .ok (some p.value, []) := by
    intro s read
    cases p.capital <;> simp [readPower?, read]
  apply marked
  have digits : readDigits p.digits.text = .ok (p.digits.numbers, []) := by
    have read := p.digits.readDigits_text endsDigits_nil
    rwa [List.append_nil] at read
  obtain ⟨capital, sign, ds⟩ := p
  cases sign with
  | some sign => cases sign <;> simp [Sign.text, readPower, digits, PowerText.value,
      Digits.digitsNat_numbers]
  | none =>
    obtain ⟨b, s, written, digit⟩ := ds.exists_text_eq
    have unsigned : readPower ds.text = _ := readPower_of_unsigned
      (fun t same => by
        rw [written] at same
        cases same
        contradiction)
      (fun t same => by
        rw [written] at same
        cases same
        contradiction)
    rw [digits] at unsigned
    simpa [PowerText.value, Digits.digitsNat_numbers] using unsigned

namespace NumberText

variable (n : NumberText)

theorem exists_powerText_eq : n.powerText = [] ∨
    ∃ b s, n.powerText = b :: s ∧ (b = 101 ∨ b = 69) := by
  rw [powerText]
  cases n.power with
  | none => exact .inl rfl
  | some p => exact .inr ⟨_, _, rfl, by cases p.capital <;> simp⟩

theorem endsDigits_powerText : EndsDigits n.powerText := by
  obtain none | ⟨b, s, written, mark⟩ := n.exists_powerText_eq
  · rw [none]
    exact endsDigits_nil
  · rw [written]
    rintro _ ⟨rfl⟩
    obtain rfl | rfl := mark <;> rfl

theorem endsDigits_fractionText : EndsDigits (n.fractionText ++ n.powerText) := by
  rw [fractionText]
  cases n.fraction with
  | none => exact n.endsDigits_powerText
  | some ds =>
    rintro _ ⟨rfl⟩
    rfl

theorem readWhole_text {y : Octets} (ends : EndsDigits y) :
    readWhole (n.whole.text ++ y) = .ok (n.whole.numbers, y) := by
  unfold readWhole
  rw [n.whole.readDigits_text ends]
  split
  · next d ds t padded =>
    have numbers : n.whole.numbers = 0 :: d :: ds := congrArg Prod.fst (Except.ok.inj padded)
    -- After a leading zero there would be another digit.
    obtain ⟨zero, rest, written, isZero, more⟩ := List.map_eq_cons_iff.mp numbers
    obtain rfl : zero = 0 := Fin.ext isZero
    rw [n.unpadded rest written] at more
    contradiction
  · rfl

theorem readFraction_text : readFraction (n.fractionText ++ n.powerText) =
    .ok (n.fraction.map Digits.numbers, n.powerText) := by
  rw [fractionText]
  cases n.fraction with
  | some ds => simp [readFraction, ds.readDigits_text n.endsDigits_powerText]
  | none =>
    obtain none | ⟨b, s, written, mark⟩ := n.exists_powerText_eq
    · rw [none]
      rfl
    · rw [written]
      obtain rfl | rfl := mark <;> rfl

theorem readPower?_text : readPower? n.powerText = .ok (n.power.map PowerText.value, []) := by
  rw [powerText]
  cases n.power with
  | none => rfl
  | some p => exact p.readPower?_text

/-- Every number is read as the parts that it is made of. -/
theorem readNumeral_text : readNumeral n.text = .ok (n.numeral, []) := by
  have unsigned : readUnsigned n.negative (n.whole.text ++ (n.fractionText ++ n.powerText)) =
      .ok (n.numeral, []) := by
    simp only [readUnsigned, readWhole_text n n.endsDigits_fractionText, readFraction_text,
      readPower?_text, numeral, isInteger, Option.isNone_map]
  unfold text
  cases negative : n.negative with
  | true =>
    rw [negative] at unsigned
    exact unsigned
  | false =>
    rw [negative] at unsigned
    obtain ⟨b, s, written, digit⟩ := n.whole.exists_text_eq
    rw [if_neg Bool.false_ne_true, List.nil_append, readNumeral_of_unsigned]
    · exact unsigned
    · intro t same
      rw [written] at same
      cases same
      contradiction

/-- A number begins with its sign or with a digit. -/
theorem exists_text_eq : ∃ b s, n.text = b :: s ∧ (b = 45 || Octets.isDigit b) = true := by
  unfold text
  cases n.negative with
  | true => exact ⟨45, _, rfl, rfl⟩
  | false =>
    obtain ⟨b, s, written, digit⟩ := n.whole.exists_text_eq
    exact ⟨b, _, by rw [written]; rfl, by rw [digit, Bool.or_true]⟩

end NumberText

/-! ## What is read is a number -/

theorem exists_digit {b : UInt8} (digit : Octets.isDigit b = true) :
    ∃ d : Fin 10, UInt8.ofNat (48 + d) = b := by
  simp only [Octets.isDigit, Bool.and_eq_true, decide_eq_true_eq, UInt8.le_iff_toNat_le] at digit
  obtain ⟨low, high⟩ := digit
  change 48 ≤ b.toNat at low
  change b.toNat ≤ 57 at high
  refine ⟨⟨b.toNat - 48, by omega⟩, UInt8.toNat_inj.mp ?_⟩
  rw [UInt8.toNat_ofNat']
  dsimp only
  omega

theorem exists_of_readDigits {s rest : Octets} {numbers : List ℕ}
    (read : readDigits s = .ok (numbers, rest)) :
    ∃ ds : Digits, s = ds.text ++ rest ∧ numbers = ds.numbers ∧ EndsDigits rest := by
  have split : s = s.takeWhile Octets.isDigit ++ afterDigits s := List.takeWhile_append_dropWhile.symm
  have ends : EndsDigits (afterDigits s) := by
    intro b next
    have stopped := List.head?_dropWhile_not Octets.isDigit s
    rw [show (s.dropWhile Octets.isDigit).head? = some b from next] at stopped
    exact stopped
  obtain ⟨list, text⟩ : ∃ list : List (Fin 10),
      list.map (fun d : Fin 10 => UInt8.ofNat (48 + d)) = s.takeWhile Octets.isDigit := by
    rw [← Set.mem_range, Set.range_list_map]
    exact fun b member => exists_digit (List.mem_takeWhile_imp member)
  have nonempty : list ≠ [] := by
    rintro rfl
    unfold readDigits at read
    split at read
    · contradiction
    · split at read
      · next b t digit => simp [digit] at text
      · contradiction
  -- These digits are read as what was read, wherever they come from.
  have again := Digits.readDigits_text ⟨list, nonempty⟩ ends
  rw [Digits.text, text, ← split, read] at again
  cases again
  exact ⟨⟨list, nonempty⟩, by rw [Digits.text, text, ← split], rfl, ends⟩

theorem exists_of_readWhole {s rest : Octets} {numbers : List ℕ}
    (read : readWhole s = .ok (numbers, rest)) : ∃ ds : Digits, s = ds.text ++ rest ∧
      numbers = ds.numbers ∧ ∀ more, ds.list = 0 :: more → more = [] := by
  unfold readWhole at read
  split at read
  · contradiction
  · next single =>
    obtain ⟨ds, written, rfl, -⟩ := exists_of_readDigits read
    refine ⟨ds, written, rfl, fun more padded => ?_⟩
    cases more with
    | nil => rfl
    | cons d more =>
      rw [Digits.numbers, padded] at read
      exact (single _ _ _ read).elim

theorem exists_of_readFraction {s rest : Octets} {numbers : Option (List ℕ)}
    (read : readFraction s = .ok (numbers, rest)) : ∃ fraction : Option Digits,
      s = (fraction.map fun ds => 46 :: ds.text).getD [] ++ rest ∧
        numbers = fraction.map Digits.numbers := by
  unfold readFraction at read
  split at read
  · split at read
    · next found =>
      cases read
      obtain ⟨ds, rfl, rfl, -⟩ := exists_of_readDigits found
      exact ⟨some ds, rfl, rfl⟩
    · contradiction
  · cases read
    exact ⟨none, rfl, rfl⟩

theorem exists_of_readPower {s rest : Octets} {power : ℤ} (capital : Bool)
    (read : readPower s = .ok (power, rest)) : ∃ p : PowerText,
      p.text ++ rest = (if capital then 69 else 101) :: s ∧ power = p.value := by
  unfold readPower at read
  split at read
  · split at read
    · next found =>
      cases read
      obtain ⟨ds, rfl, rfl, -⟩ := exists_of_readDigits found
      exact ⟨⟨capital, some .plus, ds⟩, rfl, by rw [Digits.digitsNat_numbers]; rfl⟩
    · contradiction
  · split at read
    · next found =>
      cases read
      obtain ⟨ds, rfl, rfl, -⟩ := exists_of_readDigits found
      exact ⟨⟨capital, some .minus, ds⟩, rfl, by rw [Digits.digitsNat_numbers]; rfl⟩
    · contradiction
  · split at read
    · next found =>
      cases read
      obtain ⟨ds, rfl, rfl, -⟩ := exists_of_readDigits found
      exact ⟨⟨capital, none, ds⟩, rfl, by rw [Digits.digitsNat_numbers]; rfl⟩
    · contradiction

theorem exists_of_readPower? {s rest : Octets} {power : Option ℤ}
    (read : readPower? s = .ok (power, rest)) : ∃ p : Option PowerText,
      s = (p.map PowerText.text).getD [] ++ rest ∧ power = p.map PowerText.value := by
  unfold readPower? at read
  split at read
  · next b s =>
    split at read
    · next mark =>
      split at read
      · next found =>
        cases read
        simp only [Bool.or_eq_true, decide_eq_true_eq] at mark
        obtain rfl | rfl := mark
        · obtain ⟨p, written, rfl⟩ := exists_of_readPower false found
          exact ⟨some p, written.symm, rfl⟩
        · obtain ⟨p, written, rfl⟩ := exists_of_readPower true found
          exact ⟨some p, written.symm, rfl⟩
      · contradiction
    · cases read
      exact ⟨none, rfl, rfl⟩
  · cases read
    exact ⟨none, rfl, rfl⟩

theorem exists_of_readUnsigned {s rest : Octets} {negative : Bool} {numeral : Numeral}
    (read : readUnsigned negative s = .ok (numeral, rest)) : ∃ n : NumberText,
      n.text ++ rest = (if negative then [45] else []) ++ s ∧ numeral = n.numeral := by
  unfold readUnsigned at read
  split at read
  · contradiction
  · next found =>
    obtain ⟨whole, rfl, rfl, unpadded⟩ := exists_of_readWhole found
    split at read
    · contradiction
    · next found =>
      obtain ⟨fraction, rfl, rfl⟩ := exists_of_readFraction found
      split at read
      · contradiction
      · next found =>
        obtain ⟨power, rfl, rfl⟩ := exists_of_readPower? found
        cases read
        refine ⟨⟨negative, whole, unpadded, fraction, power⟩, ?_, ?_⟩
        · simp only [NumberText.text, NumberText.fractionText, NumberText.powerText, List.append_assoc]
        · simp only [NumberText.numeral, NumberText.isInteger, Option.isNone_map]

/-- Whatever is read as a number is the text of one. -/
theorem exists_of_readNumeral {s rest : Octets} {numeral : Numeral}
    (read : readNumeral s = .ok (numeral, rest)) :
    ∃ n : NumberText, s = n.text ++ rest ∧ numeral = n.numeral := by
  unfold readNumeral at read
  split at read
  · obtain ⟨n, written, rfl⟩ := exists_of_readUnsigned read
    exact ⟨n, written.symm, rfl⟩
  · obtain ⟨n, written, rfl⟩ := exists_of_readUnsigned read
    exact ⟨n, written.symm, rfl⟩

theorem readNumeral_eq_ok_iff {s : Octets} {numeral : Numeral} :
    readNumeral s = .ok (numeral, []) ↔ ∃ n : NumberText, s = n.text ∧ numeral = n.numeral := by
  constructor
  · intro read
    obtain ⟨n, written, same⟩ := exists_of_readNumeral read
    exact ⟨n, by rw [written, List.append_nil], same⟩
  · rintro ⟨n, rfl, rfl⟩
    exact n.readNumeral_text

namespace NumberText

variable (n : NumberText)

/-! ## Values as they are read -/

theorem digits_numeral : ∀ d ∈ n.numeral.whole ++ n.numeral.fraction, d < 10 := by
  intro d member
  obtain member | member := List.mem_append.mp member
  · exact Digits.lt_of_mem_numbers member
  · cases fraction : n.fraction with
    | none => simp [numeral, fraction] at member
    | some ds =>
      rw [numeral, fraction] at member
      exact Digits.lt_of_mem_numbers member

theorem plain_numeral (isInteger : n.numeral.isInteger = true) :
    n.numeral.fraction = [] ∧ n.numeral.power = 0 := by
  obtain ⟨none, none'⟩ : n.fraction = none ∧ n.power = none := by
    simpa [numeral, NumberText.isInteger] using isInteger
  simp [numeral, none, none']

/-- The number is its digits at the place where they stand. -/
theorem value_eq : n.value = (if n.negative then -1 else 1) *
    ((digitsNat (n.numeral.whole ++ n.numeral.fraction) : ℚ) *
      10 ^ (n.numeral.power - n.numeral.fraction.length)) := by
  have digits : (digitsNat (n.numeral.whole ++ n.numeral.fraction) : ℚ) =
      (n.whole.value + n.fractionValue) * 10 ^ n.numeral.fraction.length := by
    rw [digitsNat_append, numeral, fractionValue]
    cases n.fraction with
    | none => simp [show digitsNat [] = 0 from rfl, Digits.digitsNat_numbers]
    | some ds =>
      simp only [Option.map_some, Option.getD_some, Digits.digitsNat_numbers, Nat.cast_add,
        Nat.cast_mul, Nat.cast_pow, Nat.cast_ofNat]
      rw [Digits.numbers, List.length_map]
      field_simp
  rw [digits, zpow_sub₀ (by norm_num), zpow_natCast, value]
  change _ * _ * (10 : ℚ) ^ n.numeral.power = _
  field_simp

/-- An integer is its absolute value and its sign. -/
theorem eq_of_value {z : ℤ} (value : n.value = z) :
    (digitsNat (n.numeral.whole ++ n.numeral.fraction) : ℚ) *
        10 ^ (n.numeral.power - n.numeral.fraction.length) = z.natAbs ∧
      z = if n.negative then -(z.natAbs : ℤ) else z.natAbs := by
  rw [value_eq] at value
  have unsigned : 0 ≤ (digitsNat (n.numeral.whole ++ n.numeral.fraction) : ℚ) *
      10 ^ (n.numeral.power - n.numeral.fraction.length) := by positivity
  rw [Nat.cast_natAbs, Int.cast_abs]
  cases negative : n.negative with
  | true =>
    rw [negative, if_pos rfl, neg_one_mul] at value
    have negative : (z : ℚ) ≤ 0 := by linarith
    rw [abs_of_nonpos negative]
    have : z ≤ 0 := by exact_mod_cast negative
    exact ⟨by linarith, by rw [if_pos rfl]; omega⟩
  | false =>
    rw [negative, if_neg Bool.false_ne_true, one_mul] at value
    rw [value] at unsigned ⊢
    rw [abs_of_nonneg unsigned]
    have : 0 ≤ z := by exact_mod_cast unsigned
    exact ⟨rfl, by rw [if_neg Bool.false_ne_true]; omega⟩

end NumberText

end Tollgate.Json
