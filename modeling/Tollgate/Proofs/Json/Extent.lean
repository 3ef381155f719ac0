import Tollgate.Proofs.Json.Rounds

/-! # Where a scalar ends

A scalar is read in the same way wherever it stands: `reads_or_fails` says that a text that is
passed over as one scalar is also read as one scalar, whatever follows it (`Reads`), or is a fault,
whatever follows it (`Fails`).  What follows a number must not continue it (`Stops`).

A number is taken apart along its grammar: what one part of it is passed over as, it is read as, and
what is read stays the same if something is added behind.  Strings need more care, since the passing
over counts the two halves of a surrogate pair one by one while the reading takes them together.
-/

namespace Tollgate.Json

/-- What does not continue a number. -/
def Stops (y : Octets) : Prop :=
  ∀ b, y.head? = some b → Octets.isDigit b = false ∧ b ≠ 46 ∧ b ≠ 101 ∧ b ≠ 69

/-- A text of one value, with blanks before it or not. -/
def IsText (v : Octets) : Prop := ∃ rounds, skipValue rounds v = .ok []

/-- Wherever the text stands, it is read as this, and nothing more is read. -/
def Reads {α : Type} (reader : Nat → Reader α) (v : Octets) (a : α) : Prop :=
  ∀ n y, (v ++ y).length < n → Stops y → reader n (v ++ y) = .ok (a, y)

/-- Wherever the text stands, it is a fault. -/
def Fails {α : Type} (reader : Nat → Reader α) (v : Octets) : Prop :=
  ∀ n y, (v ++ y).length < n → Stops y → ∃ fault, reader n (v ++ y) = .error fault

/-! ## Words -/

theorem eq_of_readWord {expected v : Octets} (read : readWord expected v = .ok []) :
    v = expected := by
  induction expected generalizing v with
  | nil =>
    cases read
    rfl
  | cons e expected ih =>
    cases v with
    | nil => contradiction
    | cons b v =>
      unfold readWord at read
      split at read
      · next same => rw [same, ih read]
      · contradiction

/-! ## Numbers -/

theorem afterDigits_append {s y : Octets} (stops : Stops y) :
    afterDigits (s ++ y) = afterDigits s ++ y := by
  unfold afterDigits
  rw [List.dropWhile_append]
  split
  · next gone =>
    have none : s.dropWhile Octets.isDigit = [] := List.isEmpty_iff.mp gone
    rw [none, List.nil_append]
    cases y with
    | nil => rfl
    | cons b y => exact List.dropWhile_cons_of_neg (by simp [(stops b rfl).1])
  · rfl

theorem leadingDigits_append {s y : Octets} (stops : Stops y) :
    leadingDigits (s ++ y) = leadingDigits s := by
  unfold leadingDigits
  rw [List.takeWhile_append]
  split
  · next all =>
    have whole : s.takeWhile Octets.isDigit = s := (List.takeWhile_prefix _).eq_of_length all
    have ended : y.takeWhile Octets.isDigit = [] := by
      cases y with
      | nil => rfl
      | cons b y => exact List.takeWhile_cons_of_neg (by simp [(stops b rfl).1])
    rw [ended, List.append_nil, whole]
  · rfl

theorem readDigits_append {s r y : Octets} {digits : List Nat} (stops : Stops y)
    (read : readDigits s = .ok (digits, r)) : readDigits (s ++ y) = .ok (digits, r ++ y) := by
  cases s with
  | nil => contradiction
  | cons b s =>
    simp only [readDigits] at read
    split at read
    · next digit =>
      cases read
      rw [← leadingDigits_append stops, ← afterDigits_append stops]
      simp only [List.cons_append, readDigits, digit, if_true]
    · contradiction

theorem readWhole_append {s r y : Octets} {digits : List Nat} (stops : Stops y)
    (read : readWhole s = .ok (digits, r)) : readWhole (s ++ y) = .ok (digits, r ++ y) := by
  unfold readWhole at read ⊢
  split at read
  · contradiction
  · next notPadded =>
    rw [readDigits_append stops read]
    split
    · next padded =>
      cases padded
      exact absurd read (notPadded _ _ _)
    · rfl

theorem readFraction_append {s r y : Octets} {digits : Option (List Nat)} (stops : Stops y)
    (read : readFraction s = .ok (digits, r)) : readFraction (s ++ y) = .ok (digits, r ++ y) := by
  unfold readFraction at read
  split at read
  · next s =>
    split at read
    · next digits' s' found =>
      cases read
      simp only [List.cons_append, readFraction, readDigits_append stops found]
    · contradiction
  · next noPoint =>
    cases read
    unfold readFraction
    split
    · next rest same =>
      cases s with
      | nil => exact absurd rfl (stops 46 (by rw [List.nil_append] at same; rw [same]; rfl)).2.1
      | cons b s =>
        cases same
        exact absurd rfl (noPoint s)
    · rfl

theorem readPower_append {s r y : Octets} {power : Int} (stops : Stops y)
    (read : readPower s = .ok (power, r)) : readPower (s ++ y) = .ok (power, r ++ y) := by
  unfold readPower at read
  split at read <;> split at read
  · next s digits s' found =>
    cases read
    simp only [List.cons_append, readPower, readDigits_append stops found]
  · contradiction
  · next s digits s' found =>
    cases read
    simp only [List.cons_append, readPower, readDigits_append stops found]
  · contradiction
  · next noPlus noMinus _ digits s' found =>
    cases read
    -- Without a sign the first octet is a digit, and so it is no sign of the longer text either.
    cases s with
    | nil => contradiction
    | cons b s =>
      have more := readDigits_append stops found
      rw [List.cons_append] at more ⊢
      unfold readPower
      split
      · next same =>
        cases same
        exact absurd rfl (noPlus s)
      · next same =>
        cases same
        exact absurd rfl (noMinus s)
      · rw [more]
  · contradiction

theorem readPower?_append {s r y : Octets} {power : Option Int} (stops : Stops y)
    (read : readPower? s = .ok (power, r)) : readPower? (s ++ y) = .ok (power, r ++ y) := by
  cases s with
  | nil =>
    cases read
    -- Nothing was left to read, and what follows does not begin with an exponent mark.
    cases y with
    | nil => rfl
    | cons b y =>
      obtain ⟨_, _, small, large⟩ := stops b rfl
      simp [readPower?, small, large]
  | cons b s =>
    simp only [readPower?, List.cons_append] at read ⊢
    split at read
    · next mark =>
      split at read
      · next power' s' found =>
        cases read
        simp only [mark, if_true, readPower_append stops found]
      · contradiction
    · next noMark =>
      cases read
      simp only [noMark, if_false, Bool.false_eq_true, List.cons_append]

theorem readUnsigned_append {s r y : Octets} {negative : Bool} {n : Numeral} (stops : Stops y)
    (read : readUnsigned negative s = .ok (n, r)) :
    readUnsigned negative (s ++ y) = .ok (n, r ++ y) := by
  unfold readUnsigned at read
  cases whole : readWhole s with
  | error fault => simp [whole] at read
  | ok found =>
    simp only [whole] at read
    cases fraction : readFraction found.2 with
    | error fault => simp [fraction] at read
    | ok found' =>
      simp only [fraction] at read
      cases power : readPower? found'.2 with
      | error fault => simp [power] at read
      | ok found'' =>
        simp only [power] at read
        cases read
        simp only [readUnsigned, readWhole_append stops whole, readFraction_append stops fraction,
          readPower?_append stops power]

theorem readNumeral_of_unsigned {s : Octets} (noSign : ∀ t, s ≠ 45 :: t) :
    readNumeral s = readUnsigned false s := by
  unfold readNumeral
  split
  · exact absurd rfl (noSign _)
  · rfl

theorem readNumeral_append {s r y : Octets} {n : Numeral} (stops : Stops y)
    (read : readNumeral s = .ok (n, r)) : readNumeral (s ++ y) = .ok (n, r ++ y) := by
  by_cases signed : ∃ t, s = 45 :: t
  · obtain ⟨t, rfl⟩ := signed
    simp only [readNumeral] at read
    simp only [List.cons_append, readNumeral, readUnsigned_append stops read]
  · have noSign : ∀ t, s ≠ 45 :: t := fun t same => signed ⟨t, same⟩
    rw [readNumeral_of_unsigned noSign] at read
    have more := readUnsigned_append stops read
    cases s with
    | nil => contradiction
    | cons b s =>
      rw [List.cons_append] at more ⊢
      rw [readNumeral_of_unsigned, more]
      intro t same
      cases same
      exact noSign s rfl

theorem readDigits_of_skipDigits {s r : Octets} (skipped : skipDigits s = .ok r) :
    ∃ digits, readDigits s = .ok (digits, r) := by
  cases s with
  | nil => contradiction
  | cons b s =>
    simp only [skipDigits] at skipped
    split at skipped
    · next digit =>
      cases skipped
      refine ⟨leadingDigits (b :: s), ?_⟩
      have after : afterDigits (b :: s) = afterDigits s := List.dropWhile_cons_of_pos digit
      simp only [readDigits, digit, if_true, after]
    · contradiction

theorem eq_of_leadingDigits {s r : Octets} {b : UInt8} {digits : List Nat}
    (digit : Octets.isDigit b = true) (read : readDigits (b :: s) = .ok (0 :: digits, r)) :
    b = 48 := by
  simp only [readDigits, digit, if_true, leadingDigits, List.takeWhile_cons_of_pos digit,
    List.map_cons, Except.ok.injEq, Prod.mk.injEq, List.cons.injEq] at read
  obtain ⟨⟨small, _⟩, _⟩ := read
  simp only [Octets.isDigit, Bool.and_eq_true, decide_eq_true_eq, UInt8.le_iff_toNat_le] at digit
  obtain ⟨large, _⟩ := digit
  apply UInt8.toNat_inj.mp
  exact Nat.le_antisymm (Nat.le_of_sub_eq_zero small) large

theorem readWhole_of_skipWhole {s r : Octets} (skipped : skipWhole s = .ok r) :
    ∃ digits, readWhole s = .ok (digits, r) := by
  cases s with
  | nil => contradiction
  | cons b s =>
    simp only [skipWhole] at skipped
    split at skipped
    · next zero =>
      subst zero
      split at skipped
      · cases skipped
        exact ⟨[0], rfl⟩
      · next c s =>
        split at skipped
        · contradiction
        · next noDigit =>
          cases skipped
          have zero : Octets.isDigit 48 = true := rfl
          have leading : leadingDigits (48 :: c :: s) = [0] := by
            simp [leadingDigits, zero, noDigit]
          have after : afterDigits (48 :: c :: s) = c :: s := by
            simp [afterDigits, zero, noDigit]
          refine ⟨[0], ?_⟩
          simp [readWhole, readDigits, leading, after, zero]
    · next positive =>
      split at skipped
      · next digit =>
        -- The first digit is not zero, so the digits are not padded.
        obtain ⟨digits, read⟩ := readDigits_of_skipDigits (s := b :: s) (r := r) (by
          simp only [skipDigits, digit, if_true]
          exact skipped)
        refine ⟨digits, ?_⟩
        unfold readWhole
        rw [read]
        split
        · next padded =>
          cases padded
          exact absurd (eq_of_leadingDigits digit read) positive
        · rfl
      · contradiction

theorem readPower?_of_skipPower {s r : Octets} (skipped : skipPower s = .ok r) :
    ∃ power, readPower? s = .ok (power, r) := by
  cases s with
  | nil =>
    cases skipped
    exact ⟨none, rfl⟩
  | cons b s =>
    simp only [skipPower] at skipped
    split at skipped
    · next mark =>
      have powered : ∃ power, readPower s = .ok (power, r) := by
        split at skipped
        · obtain ⟨digits, read⟩ := readDigits_of_skipDigits skipped
          exact ⟨_, by simp only [readPower, read]; rfl⟩
        · obtain ⟨digits, read⟩ := readDigits_of_skipDigits skipped
          exact ⟨_, by simp only [readPower, read]; rfl⟩
        · next noPlus noMinus =>
          obtain ⟨digits, read⟩ := readDigits_of_skipDigits skipped
          refine ⟨digitsNat digits, ?_⟩
          unfold readPower
          split
          · exact absurd rfl (noPlus _)
          · exact absurd rfl (noMinus _)
          · rw [read]
      obtain ⟨power, read⟩ := powered
      exact ⟨some power, by simp only [readPower?, mark, if_true, read]⟩
    · next noMark =>
      cases skipped
      exact ⟨none, by simp only [readPower?, noMark, if_false, Bool.false_eq_true]⟩

theorem readUnsigned_of_skipUnsigned {s r : Octets} (negative : Bool)
    (skipped : skipUnsigned s = .ok r) : ∃ n, readUnsigned negative s = .ok (n, r) := by
  unfold skipUnsigned at skipped
  split at skipped
  · contradiction
  · next s₁ whole =>
    obtain ⟨digits, read⟩ := readWhole_of_skipWhole whole
    split at skipped
    · contradiction
    · next s₂ fraction =>
      obtain ⟨digits', read'⟩ := readDigits_of_skipDigits fraction
      obtain ⟨power, read''⟩ := readPower?_of_skipPower skipped
      refine ⟨⟨negative, digits, digits', power.getD 0, false⟩, ?_⟩
      simp only [readUnsigned, read, readFraction, read', read'']
      rfl
  · next s₁ noPoint whole =>
    obtain ⟨digits, read⟩ := readWhole_of_skipWhole whole
    have fraction : readFraction s₁ = .ok (none, s₁) := by
      unfold readFraction
      split
      · next s₂ => exact absurd rfl (noPoint s₂)
      · rfl
    obtain ⟨power, read'⟩ := readPower?_of_skipPower skipped
    refine ⟨⟨negative, digits, [], power.getD 0, power.isNone⟩, ?_⟩
    simp only [readUnsigned, read, fraction, read']
    rfl

theorem readNumeral_of_skipNumber {s r : Octets} (skipped : skipNumber s = .ok r) :
    ∃ n, readNumeral s = .ok (n, r) := by
  by_cases signed : ∃ t, s = 45 :: t
  · obtain ⟨t, rfl⟩ := signed
    exact readUnsigned_of_skipUnsigned true skipped
  · have noSign : ∀ t, s ≠ 45 :: t := fun t same => signed ⟨t, same⟩
    have unsigned : skipNumber s = skipUnsigned s := by
      unfold skipNumber
      split
      · exact absurd rfl (noSign _)
      · rfl
    rw [unsigned] at skipped
    rw [readNumeral_of_unsigned noSign]
    exact readUnsigned_of_skipUnsigned false skipped

/-! ## Strings -/

theorem readUnit_append {s r : Octets} {unit : Nat} (read : readUnit s = .ok (unit, r))
    (y : Octets) : readUnit (s ++ y) = .ok (unit, r ++ y) := by
  unfold readUnit at read
  split at read
  · next a b c d s =>
    split at read
    · next a' b' c' d' first second third fourth =>
      cases read
      simp only [List.cons_append, readUnit, first, second, third, fourth]
    · contradiction
  · contradiction

/-- After the first half of a surrogate pair, in a string that ends where the text ends. -/
theorem readLowSurrogate_cases {k : Nat} {s : Octets} (skipped : skipText k s = .ok [])
    (high : Nat) :
    (∃ c r k', r.length < s.length ∧ skipText k' r = .ok [] ∧
      ∀ y, readLowSurrogate high (s ++ y) = .ok (c, r ++ y)) ∨
      ∀ y, ∃ fault, readLowSurrogate high (s ++ y) = .error fault := by
  cases k with
  | zero => contradiction
  | succ k =>
    cases s with
    | nil => contradiction
    | cons b t =>
      by_cases escape : b = 92
      · subst escape
        cases t with
        | nil => contradiction
        | cons u t =>
          by_cases unicode : u = 117
          · subst unicode
            simp only [skipText] at skipped
            -- The passing over reads the second unit as an escape of its own.
            have noLetter : (escaped? 117).isSome = false := rfl
            simp only [noLetter] at skipped
            cases unit : readUnit t with
            | error fault => simp [unit] at skipped
            | ok found =>
              obtain ⟨low, r⟩ := found
              simp [unit] at skipped
              have shorter := length_lt_of_readUnit unit
              by_cases misplaced : (low < 0xDC00 || 0xDFFF < low) = true
              · refine .inr fun y => ⟨.malformed, ?_⟩
                simp only [List.cons_append, readLowSurrogate, readUnit_append unit y, misplaced,
                  if_true]
                rfl
              · refine .inl ⟨Char.ofNat ((high - 0xD800) * 0x400 + (low - 0xDC00) + 0x10000),
                  r, k, ?_, skipped, fun y => ?_⟩
                · simp only [List.length_cons]
                  omega
                · simp only [List.cons_append, readLowSurrogate, readUnit_append unit y, misplaced]
                  rfl
          · refine .inr fun y => ⟨.malformed, ?_⟩
            simp [readLowSurrogate, unicode]
      · refine .inr fun y => ⟨.malformed, ?_⟩
        cases more : t ++ y with
        | nil => simp [readLowSurrogate, escape, more]
        | cons u t => simp [readLowSurrogate, escape, more]

theorem readEscape_cases {k : Nat} {s : Octets} (skipped : skipText (k + 1) (92 :: s) = .ok []) :
    (∃ o r k', r.length < s.length ∧ skipText k' r = .ok [] ∧
      ∀ y, readEscape (s ++ y) = .ok (o, r ++ y)) ∨
      ∀ y, ∃ fault, readEscape (s ++ y) = .error fault := by
  cases s with
  | nil => contradiction
  | cons c t =>
    cases letter : escaped? c with
    | some o =>
      simp [skipText, letter] at skipped
      refine .inl ⟨[o], t, k, Nat.lt_succ_self _, skipped, fun y => ?_⟩
      simp only [List.cons_append, readEscape, letter]
    | none =>
      by_cases unicode : c = 117
      · subst unicode
        cases unit : readUnit t with
        | error fault => simp [skipText, letter, unit] at skipped
        | ok found =>
          obtain ⟨unit', r⟩ := found
          simp [skipText, letter, unit] at skipped
          have shorter := length_lt_of_readUnit unit
          -- A unit is a low surrogate, a character of its own, or the first half of a pair.
          by_cases low : (0xDC00 ≤ unit' && unit' ≤ 0xDFFF) = true
          · refine .inr fun y => ⟨.malformed, ?_⟩
            simp only [List.cons_append, readEscape, letter, readCodePoint, readUnit_append unit y,
              low, if_true]
          · by_cases single : (unit' < 0xD800 || 0xDBFF < unit') = true
            · refine .inl ⟨String.utf8EncodeChar (Char.ofNat unit'), r, k, ?_, skipped,
                fun y => ?_⟩
              · simp only [List.length_cons]
                omega
              · simp only [List.cons_append, readEscape, letter, readCodePoint,
                  readUnit_append unit y, low, single, if_true]
                rfl
            · obtain ⟨point, r', k', shorter', skipped', reads⟩ | fails :=
                readLowSurrogate_cases skipped unit'
              · refine .inl ⟨String.utf8EncodeChar point, r', k', ?_, skipped', fun y => ?_⟩
                · simp only [List.length_cons]
                  omega
                · simp only [List.cons_append, readEscape, letter, readCodePoint,
                    readUnit_append unit y, low, single, if_true, reads y]
                  rfl
              · refine .inr fun y => ?_
                obtain ⟨fault, failed⟩ := fails y
                refine ⟨fault, ?_⟩
                simp only [List.cons_append, readEscape, letter, readCodePoint,
                  readUnit_append unit y, low, single, if_true, failed]
                rfl
      · simp [skipText, letter, unicode] at skipped

/-- A string that ends where the text ends. -/
theorem readOctets_cases {k : Nat} {s : Octets} (skipped : skipText k s = .ok []) (seen : Octets) :
    (∃ o, ∀ n y, (s ++ y).length < n → readOctets n seen (s ++ y) = .ok (o, y)) ∨
      ∀ n y, ∃ fault, readOctets n seen (s ++ y) = .error fault := by
  induction size : s.length using Nat.strongRecOn generalizing k s seen with
  | _ count ih =>
    cases k with
    | zero => contradiction
    | succ k =>
      cases s with
      | nil => contradiction
      | cons b t =>
        -- What comes first is read in the same way each time; the rest is shorter.
        have onwards : ∀ {r : Octets} {k' : Nat} (seen' : Octets), r.length < count →
            skipText k' r = .ok [] →
            (∀ n y, readOctets (n + 1) seen (b :: t ++ y) = readOctets n seen' (r ++ y)) →
            (∃ o, ∀ n y, (b :: t ++ y).length < n → readOctets n seen (b :: t ++ y) = .ok (o, y)) ∨
              ∀ n y, ∃ fault, readOctets n seen (b :: t ++ y) = .error fault := by
          intro r k' seen' shorter skipped' same
          obtain ⟨o, reads⟩ | fails := ih r.length shorter skipped' seen' rfl
          · refine .inl ⟨o, fun n y enough => ?_⟩
            cases n with
            | zero => contradiction
            | succ n =>
              rw [same]
              refine reads n y ?_
              simp only [List.length_append] at enough ⊢
              omega
          · refine .inr fun n y => ?_
            cases n with
            | zero => exact ⟨.truncated, rfl⟩
            | succ n =>
              rw [same]
              exact fails n y
        by_cases quote : b = 34
        · subst quote
          cases skipped
          refine .inl ⟨seen.reverse, fun n y enough => ?_⟩
          cases n with
          | zero => contradiction
          | succ n => rfl
        · by_cases escape : b = 92
          · subst escape
            obtain ⟨o, r, k', shorter, skipped', reads⟩ | fails := readEscape_cases skipped
            · refine onwards (o.reverseAux seen) ?_ skipped' fun n y => ?_
              · rw [← size, List.length_cons]
                omega
              · simp only [List.cons_append, readOctets, reads y]
                rfl
            · refine .inr fun n y => ?_
              cases n with
              | zero => exact ⟨.truncated, rfl⟩
              | succ n =>
                obtain ⟨fault, failed⟩ := fails y
                refine ⟨fault, ?_⟩
                simp only [List.cons_append, readOctets, failed]
                rfl
          · by_cases control : b < 32
            · simp [skipText, quote, escape, control] at skipped
            · simp only [skipText, quote, escape, control, if_false] at skipped
              refine onwards (b :: seen) ?_ skipped fun n y => ?_
              · rw [← size, List.length_cons]
                omega
              · simp only [List.cons_append, readOctets, quote, escape, control, if_false]

theorem readText_cases {k : Nat} {s : Octets} (skipped : skipText k s = .ok []) :
    (∃ t, ∀ n y, (s ++ y).length < n → readText n (s ++ y) = .ok (t, y)) ∨
      ∀ n y, (s ++ y).length < n → ∃ fault, readText n (s ++ y) = .error fault := by
  obtain ⟨o, reads⟩ | fails := readOctets_cases skipped []
  · cases decoded : Octets.toText? o with
    | some t =>
      refine .inl ⟨t, fun n y enough => ?_⟩
      simp only [readText, reads n y enough, decoded]
    | none =>
      refine .inr fun n y enough => ⟨.malformed, ?_⟩
      simp only [readText, reads n y enough, decoded]
  · refine .inr fun n y _ => ?_
    obtain ⟨fault, failed⟩ := fails n y
    exact ⟨fault, by simp only [readText, failed]⟩

/-! ## Scalars -/

theorem skipBlanks_append {v s y : Octets} {b : UInt8} (start : skipBlanks v = b :: s) :
    skipBlanks (v ++ y) = b :: (s ++ y) := by
  unfold skipBlanks at start ⊢
  rw [List.dropWhile_append, start]
  rfl

theorem skipBlanks_blanks {blanks : Octets} (blank : ∀ b ∈ blanks, isBlank b = true)
    (s : Octets) : skipBlanks (blanks ++ s) = skipBlanks s :=
  List.dropWhile_append_of_pos blank

theorem IsText.blanks {v blanks : Octets} (text : IsText v)
    (blank : ∀ b ∈ blanks, isBlank b = true) : IsText (blanks ++ v) := by
  obtain ⟨rounds, skipped⟩ := text
  refine ⟨rounds, ?_⟩
  cases rounds with
  | zero => contradiction
  | succ k =>
    have same : skipStart (k + 1) (blanks ++ v) = skipStart (k + 1) v := by
      unfold skipStart
      rw [skipBlanks_blanks blank]
    unfold skipValue skipOpen at skipped ⊢
    rw [same]
    exact skipped

/-- Blanks before a scalar do not count. -/
theorem reads_blanks_iff {v blanks : Octets} {shape : Shape}
    (blank : ∀ b ∈ blanks, isBlank b = true) :
    Reads readScalar (blanks ++ v) shape ↔ Reads readScalar v shape := by
  have same : ∀ n y, readScalar n (blanks ++ v ++ y) = readScalar n (v ++ y) := by
    intro n y
    rw [← readScalar_skipBlanks, List.append_assoc, skipBlanks_blanks blank,
      readScalar_skipBlanks]
  constructor
  · intro reads n y enough stops
    have read := reads ((blanks ++ v ++ y).length + 1) y (Nat.lt_succ_self _) stops
    rw [same] at read
    rw [← read]
    refine readScalar_eq enough ?_
    simp only [List.length_append]
    omega
  · intro reads n y enough stops
    rw [same]
    refine reads n y ?_ stops
    simp only [List.length_append] at enough ⊢
    omega

inductive IsScalar : Octets → Prop
  | null : IsScalar nullWord
  | true : IsScalar trueWord
  | false : IsScalar falseWord
  | text {k : Nat} {s : Octets} (passed : skipText k s = .ok []) : IsScalar (34 :: s)
  | number {b : UInt8} {s : Octets} (mark : (b = 45 || Octets.isDigit b) = true)
      (passed : skipNumber (b :: s) = .ok []) : IsScalar (b :: s)

/-- A text of one value begins an enclosure or is one scalar. -/
theorem isScalar_of_isText {v : Octets} (text : IsText v)
    (noList : (skipBlanks v).head? ≠ some 91) (noObject : (skipBlanks v).head? ≠ some 123) :
    IsScalar (skipBlanks v) := by
  have scalar : ∀ {r : Except Fault Octets} {o : Option Enclosure} {s : Octets},
      r.map (fun s => ((none : Option Enclosure), s)) = .ok (o, s) → o = none ∧ r = .ok s := by
    intro r o s passed
    cases r with
    | error fault => contradiction
    | ok s' =>
      cases passed
      exact ⟨rfl, rfl⟩
  obtain ⟨rounds, skipped⟩ := text
  cases rounds with
  | zero => contradiction
  | succ k =>
    unfold skipValue skipOpen skipStart at skipped
    cases start : skipBlanks v with
    | nil => simp [start] at skipped
    | cons b rest =>
      rw [start] at noList noObject
      simp only [List.head?_cons, ne_eq, Option.some.injEq] at noList noObject
      simp only [start, noList, noObject, if_false] at skipped
      split at skipped
      · contradiction
      · next opened s found =>
        -- A scalar opens nothing, so that the text ends with it.
        have ended : opened = none → s = [] := by
          rintro rfl
          simpa [skipClosings] using skipped
        have whole : ∀ {r : Except Fault Octets},
            r.map (fun s => ((none : Option Enclosure), s)) = .ok (opened, s) → r = .ok [] := by
          intro r passed
          obtain ⟨none, rfl⟩ := scalar passed
          rw [ended none]
        split at found
        · next mark =>
          rw [mark, eq_of_readWord (whole found)]
          exact .null
        split at found
        · next mark =>
          rw [mark, eq_of_readWord (whole found)]
          exact .true
        split at found
        · next mark =>
          rw [mark, eq_of_readWord (whole found)]
          exact .false
        split at found
        · next mark =>
          rw [mark]
          exact .text (whole found)
        split at found
        · next mark => exact .number mark (whole found)
        · contradiction

/-- A scalar that begins with a sign or a digit is a number. -/
theorem readScalar_of_mark (n : Nat) {s t : Octets} {b : UInt8} (start : skipBlanks s = b :: t)
    (mark : (b = 45 || Octets.isDigit b) = true) :
    readScalar n s =
      (readNumber (b :: t)).map fun found => (Shape.number found.1, found.2) := by
  have noWord : b ≠ 110 ∧ b ≠ 116 ∧ b ≠ 102 ∧ b ≠ 34 := by
    refine ⟨?_, ?_, ?_, ?_⟩ <;>
      · rintro rfl
        contradiction
  obtain ⟨noNull, noTrue, noFalse, noText⟩ := noWord
  simp only [readScalar, start, noNull, noTrue, noFalse, noText, mark, if_true, if_false]
  cases readNumber (b :: t) <;> rfl

/-- A scalar is read as one wherever it stands, or it is a fault wherever it stands. -/
theorem reads_or_fails {v : Octets} (scalar : IsScalar (skipBlanks v)) :
    (∃ shape, shape ≠ .sequence ∧ shape ≠ .map ∧ Reads readScalar v shape) ∨
      Fails readScalar v := by
  generalize start : skipBlanks v = s at scalar
  have begins : ∀ {b t}, s = b :: t → ∀ y, skipBlanks (v ++ y) = b :: (t ++ y) ∧
      (t ++ y).length < (v ++ y).length := by
    rintro b t rfl y
    have next := skipBlanks_append (y := y) start
    exact ⟨next, length_lt_of_skipBlanks next⟩
  cases scalar with
  | null =>
    refine .inl ⟨.null, by simp, by simp, fun n y _ _ => ?_⟩
    rw [readScalar, (begins rfl y).1]
    rfl
  | true =>
    refine .inl ⟨.bool true, by simp, by simp, fun n y _ _ => ?_⟩
    rw [readScalar, (begins rfl y).1]
    rfl
  | false =>
    refine .inl ⟨.bool false, by simp, by simp, fun n y _ _ => ?_⟩
    rw [readScalar, (begins rfl y).1]
    rfl
  | text passed =>
    obtain ⟨t, reads⟩ | fails := readText_cases passed
    · refine .inl ⟨.text t, by simp, by simp, fun n y enough _ => ?_⟩
      obtain ⟨next, shorter⟩ := begins rfl y
      have read := reads n y (Nat.lt_trans shorter enough)
      simp [readScalar, next, read]
    · refine .inr fun n y enough _ => ?_
      obtain ⟨next, shorter⟩ := begins rfl y
      obtain ⟨fault, failed⟩ := fails n y (Nat.lt_trans shorter enough)
      exact ⟨fault, by simp [readScalar, next, failed]⟩
  | @number b t mark passed =>
    obtain ⟨numeral, read⟩ := readNumeral_of_skipNumber passed
    cases valued : numeral.value? with
    | some number =>
      refine .inl ⟨.number number, by simp, by simp, fun n y _ stops => ?_⟩
      have more := readNumeral_append stops read
      rw [List.cons_append] at more
      rw [readScalar_of_mark n (begins rfl y).1 mark]
      simp only [readNumber, more, valued, Except.map, List.nil_append]
    | none =>
      refine .inr fun n y _ stops => ⟨.malformed, ?_⟩
      have more := readNumeral_append stops read
      rw [List.cons_append] at more
      rw [readScalar_of_mark n (begins rfl y).1 mark]
      simp only [readNumber, more, valued, Except.map]

end Tollgate.Json
