import Tollgate.Proofs.Json.Extent

/-! # What is written is read back

Readers undo the printer of `Tollgate.Json`.  What a text is read as wherever it stands (`Reads`) is
put together along the way it was written: strings octet by octet (`readText_renderText`), integers
by their digits (`readNumber_renderInt`), lists item by item (`reads_renderItems`), and records
member by member, where `Fills` says how the members lead from one state of a reader to the next.
-/

namespace Tollgate.Json

/-! ## Strings -/

theorem readEscape_control {b : UInt8} (control : b < 32) (y : Octets) :
    readEscape (117 :: 48 :: 48 :: Octets.hexDigit (b.toNat / 16) ::
      Octets.hexDigit (b.toNat % 16) :: y) = .ok ([b], y) := by
  have small : b.toNat < 32 := UInt8.lt_iff_toNat_lt.mp control
  have digits : ∀ n : Fin 16, Octets.hexValue? (Octets.hexDigit n.val) = some n.val := by decide
  have encoded : ∀ n : Fin 32, String.utf8EncodeChar (Char.ofNat n.val) = [UInt8.ofNat n.val] := by
    decide +kernel
  have high := digits ⟨b.toNat / 16, by omega⟩
  have low := digits ⟨b.toNat % 16, by omega⟩
  have zero : Octets.hexValue? 48 = some 0 := rfl
  have whole : b.toNat / 16 * 16 + b.toNat % 16 = b.toNat := Nat.div_add_mod' _ _
  -- The two zeros leave the value of the two digits behind them, which is below any surrogate.
  have unit : readUnit (48 :: 48 :: Octets.hexDigit (b.toNat / 16) ::
      Octets.hexDigit (b.toNat % 16) :: y) = .ok (b.toNat, y) := by
    simp [readUnit, zero, high, low, whole]
  have octet := encoded ⟨b.toNat, small⟩
  simp only [UInt8.ofNat_toNat] at octet
  have noSurrogate : (0xDC00 ≤ b.toNat && b.toNat ≤ 0xDFFF) = false := by
    simp only [Bool.and_eq_false_iff, decide_eq_false_iff_not]
    omega
  have single : (b.toNat < 0xD800 || 0xDBFF < b.toNat) = true := by
    simp only [Bool.or_eq_true, decide_eq_true_eq]
    omega
  simp [readEscape, escaped?, readCodePoint, unit, noSurrogate, single, octet]

/-- One octet of a string, as the printer writes it. -/
theorem readOctets_escapeOctet (n : Nat) (seen : Octets) (b : UInt8) (y : Octets) :
    readOctets (n + 1) seen (escapeOctet b ++ y) = readOctets n (b :: seen) y := by
  unfold escapeOctet
  -- First the seven octets with an escape of their own.
  iterate 7
    split
    · next same =>
      subst same
      rfl
  split
  · next control =>
    simp only [List.cons_append, List.nil_append, readOctets, readEscape_control control]
    rfl
  · next noQuote noSlash _ _ _ _ _ noControl =>
    simp only [List.cons_append, List.nil_append, readOctets, noQuote, noSlash, noControl, if_false]

theorem readOctets_flatMap {n : Nat} {o y : Octets} (seen : Octets) (enough : o.length < n) :
    readOctets n seen (o.flatMap escapeOctet ++ 34 :: y) = .ok (seen.reverse ++ o, y) := by
  induction o generalizing n seen with
  | nil =>
    cases n with
    | zero => contradiction
    | succ n => simp [readOctets]
  | cons b o ih =>
    cases n with
    | zero => contradiction
    | succ n =>
      rw [List.flatMap_cons, List.append_assoc, readOctets_escapeOctet,
        ih _ (Nat.lt_of_succ_lt_succ enough)]
      simp

theorem length_le_flatMap (o : Octets) : o.length ≤ (o.flatMap escapeOctet).length := by
  have one : ∀ b, 1 ≤ (escapeOctet b).length := by
    intro b
    unfold escapeOctet
    grind
  induction o with
  | nil => exact Nat.le_refl _
  | cons b o ih =>
    have first := one b
    simp only [List.flatMap_cons, List.length_append, List.length_cons]
    omega

/-- A string after its opening quote. -/
theorem readText_renderText {n : Nat} {t : String} {y : Octets}
    (enough : (renderText t ++ y).length < n) :
    readText n ((Octets.ofString t).flatMap escapeOctet ++ 34 :: y) = .ok (t, y) := by
  have shorter := length_le_flatMap (Octets.ofString t)
  have octets := readOctets_flatMap (n := n) (o := Octets.ofString t) (y := y) [] (by
    simp only [renderText, List.length_append, List.length_cons] at enough
    omega)
  simp only [readText, octets, List.reverse_nil, List.nil_append, Octets.toText?_ofString]

/-! ## Integers -/

def decimals (n : Nat) : List Nat := (Nat.toDigits 10 n).map fun c => c.toNat - 48

theorem decimals_of_lt {n : Nat} (small : n < 10) : decimals n = [n] := by
  have digit : ∀ d : Fin 10, (Nat.digitChar d.val).toNat - 48 = d.val := by decide
  rw [decimals, Nat.toDigits_of_lt_base small, List.map_singleton, digit ⟨n, small⟩]

theorem decimals_of_le {n : Nat} (large : 10 ≤ n) :
    decimals n = decimals (n / 10) ++ decimals (n % 10) := by
  have last : n % 10 < 10 := Nat.mod_lt _ (by decide)
  unfold decimals
  rw [Nat.toDigits_of_base_le (by decide) large, List.map_append, Nat.toDigits_of_lt_base last]

theorem digitsNat_decimals (n : Nat) : digitsNat (decimals n) = n := by
  have same := Nat.ofDigitChars_toDigits (b := 10) (n := n) (by decide) (by decide)
  simpa [digitsNat, decimals, Nat.ofDigitChars, List.foldl_map, Nat.mul_comm] using same

/-- Only zero begins with a zero. -/
theorem exists_decimals_eq {n : Nat} (positive : 0 < n) : ∃ d ds, decimals n = d :: ds ∧ d ≠ 0 := by
  induction n using Nat.strongRecOn with
  | _ n ih =>
    by_cases small : n < 10
    · exact ⟨n, [], decimals_of_lt small, Nat.ne_of_gt positive⟩
    · obtain ⟨d, ds, same, nonzero⟩ := ih (n / 10) (by omega) (by omega)
      refine ⟨d, ds ++ decimals (n % 10), ?_, nonzero⟩
      rw [decimals_of_le (by omega), same, List.cons_append]

theorem decimals_ne_nil (n : Nat) : decimals n ≠ [] := by
  obtain rfl | positive := Nat.eq_zero_or_pos n
  · rw [decimals_of_lt (by decide)]
    exact List.cons_ne_nil _ _
  · obtain ⟨d, ds, same, _⟩ := exists_decimals_eq positive
    rw [same]
    exact List.cons_ne_nil _ _

/-- The octet of a digit. -/
theorem toNat_of_isDigit {c : Char} (digit : c.isDigit = true) :
    (UInt8.ofNat c.toNat).toNat = c.toNat ∧ Octets.isDigit (UInt8.ofNat c.toNat) = true := by
  simp only [Char.isDigit, Bool.and_eq_true, decide_eq_true_eq, UInt32.le_iff_toNat_le] at digit
  obtain ⟨low, high⟩ := digit
  have low : 48 ≤ c.toNat := low
  have high : c.toNat ≤ 57 := high
  have octet : (UInt8.ofNat c.toNat).toNat = c.toNat := by
    rw [UInt8.toNat_ofNat']
    omega
  refine ⟨octet, ?_⟩
  simp only [Octets.isDigit, Bool.and_eq_true, decide_eq_true_eq, UInt8.le_iff_toNat_le, octet]
  exact ⟨low, high⟩

theorem isDigit_of_mem_digitOctets {n : Nat} {b : UInt8} (member : b ∈ digitOctets n) :
    Octets.isDigit b = true := by
  obtain ⟨c, among, rfl⟩ := List.mem_map.mp member
  exact (toNat_of_isDigit (Nat.isDigit_of_mem_toDigits (by decide) (by decide) among)).2

theorem readDigits_digitOctets (n : Nat) : readDigits (digitOctets n) = .ok (decimals n, []) := by
  have all : ∀ b ∈ digitOctets n, Octets.isDigit b = true := fun _ => isDigit_of_mem_digitOctets
  have leading : leadingDigits (digitOctets n) = decimals n := by
    have whole : (digitOctets n ++ []).takeWhile Octets.isDigit = _ :=
      List.takeWhile_append_of_pos all
    rw [List.append_nil, List.takeWhile_nil, List.append_nil] at whole
    rw [leadingDigits, whole, digitOctets, List.map_map]
    refine List.map_congr_left fun c among => ?_
    have digit := Nat.isDigit_of_mem_toDigits (by decide) (by decide) among
    simp only [Function.comp_apply, (toNat_of_isDigit digit).1]
  have after : afterDigits (digitOctets n) = [] := by
    have gone : (digitOctets n ++ []).dropWhile Octets.isDigit = _ :=
      List.dropWhile_append_of_pos all
    rwa [List.append_nil, List.dropWhile_nil] at gone
  cases written : digitOctets n with
  | nil =>
    rw [written] at leading
    exact absurd leading.symm (decimals_ne_nil n)
  | cons b rest =>
    have digit := all b (by rw [written]; exact List.mem_cons_self)
    simp only [readDigits, digit, if_true]
    rw [← written, leading, after]

theorem readUnsigned_digitOctets (negative : Bool) (n : Nat) :
    readUnsigned negative (digitOctets n) = .ok (⟨negative, decimals n, [], 0, true⟩, []) := by
  have whole : readWhole (digitOctets n) = .ok (decimals n, []) := by
    unfold readWhole
    rw [readDigits_digitOctets]
    split
    · next padded =>
      -- A number that begins with a zero is zero, which has one digit.
      obtain rfl | positive := Nat.eq_zero_or_pos n
      · rw [decimals_of_lt (by decide)] at padded
        cases padded
      · obtain ⟨d, ds, same, nonzero⟩ := exists_decimals_eq positive
        rw [same] at padded
        cases padded
        contradiction
    · rfl
  simp only [readUnsigned, whole]
  rfl

theorem readNumeral_renderInt (z : Int) :
    readNumeral (renderInt z) = .ok (⟨decide (z < 0), decimals z.natAbs, [], 0, true⟩, []) := by
  unfold renderInt
  split
  · next negative =>
    rw [decide_eq_true negative]
    exact readUnsigned_digitOctets true _
  · next unsigned =>
    rw [decide_eq_false unsigned, readNumeral_of_unsigned]
    · exact readUnsigned_digitOctets false _
    · intro s written
      have sign : (45 : UInt8) ∈ digitOctets z.natAbs := by
        rw [written]
        exact List.mem_cons_self
      exact absurd (isDigit_of_mem_digitOctets sign) (by decide)

/-- All digits fit if the number does. -/
theorem fitDigits_eq {significand : Nat} {digits : List Nat}
    (fits : digits.foldl (fun n d => n * 10 + d) significand < twoTo 64) :
    fitDigits significand digits = (digits.foldl (fun n d => n * 10 + d) significand, []) := by
  have grows : ∀ (digits : List Nat) (n : Nat), n ≤ digits.foldl (fun n d => n * 10 + d) n := by
    intro digits
    induction digits with
    | nil => exact fun n => Nat.le_refl n
    | cons d digits ih => exact fun n => Nat.le_trans (by omega) (ih (n * 10 + d))
  induction digits generalizing significand with
  | nil => rfl
  | cons d digits ih =>
    have first := Nat.lt_of_le_of_lt (grows digits (significand * 10 + d)) fits
    rw [fitDigits, if_pos first]
    exact ih fits

theorem readNumber_renderInt {z : Int} (low : -twoTo 63 ≤ z) (high : z < twoTo 64) {y : Octets}
    (stops : Stops y) : readNumber (renderInt z ++ y) = .ok (.int z, y) := by
  have limit : (twoTo 63 : Int) = 9223372036854775808 := by decide
  have limit' : twoTo 63 = 9223372036854775808 := by decide
  have limit'' : twoTo 64 = 18446744073709551616 := by decide
  -- No digit is left out: the number fits into 64 bits.
  have whole : fitDigits 0 (decimals z.natAbs) = (z.natAbs, []) := by
    have value : (decimals z.natAbs).foldl (fun n d => n * 10 + d) 0 = z.natAbs :=
      digitsNat_decimals z.natAbs
    have fits : fitDigits 0 (decimals z.natAbs) = _ := fitDigits_eq (by omega)
    rwa [value] at fits
  have value : Numeral.value? ⟨decide (z < 0), decimals z.natAbs, [], 0, true⟩ =
      some (.int z) := by
    simp only [Numeral.value?, whole]
    by_cases negative : z < 0
    · have nonzero : z.natAbs ≠ 0 := by omega
      have within : ¬ twoTo 63 < z.natAbs := by omega
      have sign : -(z.natAbs : Int) = z := by omega
      rw [if_pos (by simp [negative, nonzero, within]), if_pos (decide_eq_true negative), sign]
    · have sign : (z.natAbs : Int) = z := by omega
      rw [if_pos (by simp [negative]), if_neg (by simp [negative]), sign]
  have read := readNumeral_append stops (readNumeral_renderInt z)
  simp only [readNumber, read, value, List.nil_append]

/-! ## Scalars -/

theorem reads_renderText (t : String) : Reads readScalar (renderText t) (.text t) := by
  intro n y enough _
  have text := readText_renderText enough
  simp [renderText, readScalar, skipBlanks, isBlank, text]

theorem isPresent_renderText (t : String) :
    ∃ b s, renderText t = b :: s ∧ isBlank b = false ∧ b ≠ 110 :=
  ⟨34, _, rfl, rfl, by decide⟩

theorem exists_renderInt_eq (z : Int) :
    ∃ b s, renderInt z = b :: s ∧ (b = 45 || Octets.isDigit b) = true := by
  unfold renderInt
  split
  · exact ⟨45, _, rfl, rfl⟩
  · cases written : digitOctets z.natAbs with
    | nil =>
      have read := readDigits_digitOctets z.natAbs
      rw [written] at read
      contradiction
    | cons b s =>
      have digit : Octets.isDigit b = true :=
        isDigit_of_mem_digitOctets (by rw [written]; exact List.mem_cons_self)
      exact ⟨b, s, rfl, by rw [digit, Bool.or_true]⟩

theorem isBlank_of_mark {b : UInt8} (mark : (b = 45 || Octets.isDigit b) = true) :
    isBlank b = false := by
  cases blank : isBlank b with
  | false => rfl
  | true =>
    simp only [isBlank, Bool.or_eq_true, beq_iff_eq] at blank
    rcases blank with ((rfl | rfl) | rfl) | rfl <;> contradiction

/-- A text that begins as a number does is read as the number that it is. -/
theorem reads_number {v s : Octets} {b : UInt8} {number : Number} (written : v = b :: s)
    (mark : (b = 45 || Octets.isDigit b) = true)
    (read : ∀ y, Stops y → readNumber (v ++ y) = .ok (number, y)) :
    Reads readScalar v (.number number) := by
  intro n y _ stops
  have found := read y stops
  rw [written, List.cons_append] at found ⊢
  have start : skipBlanks (b :: (s ++ y)) = b :: (s ++ y) :=
    List.dropWhile_cons_of_neg (by simp [isBlank_of_mark mark])
  rw [readScalar_of_mark n start mark, found]
  rfl

theorem reads_renderInt {z : Int} (low : -twoTo 63 ≤ z) (high : z < twoTo 64) :
    Reads readScalar (renderInt z) (.number (.int z)) := by
  obtain ⟨b, s, written, mark⟩ := exists_renderInt_eq z
  exact reads_number written mark fun y stops => readNumber_renderInt low high stops

/-- A text that is nothing but a number is read so wherever it stands. -/
theorem reads_numeral {v s : Octets} {b : UInt8} {numeral : Numeral} {number : Number}
    (written : v = b :: s) (mark : (b = 45 || Octets.isDigit b) = true)
    (read : readNumeral v = .ok (numeral, [])) (value : numeral.value? = some number) :
    Reads readScalar v (.number number) := by
  apply reads_number written mark
  intro y stops
  have more := readNumeral_append stops read
  simp only [readNumber, more, value, List.nil_append]

section Combinators

variable {α β σ : Type} {v : Octets}

theorem Reads.judged {judge : Shape → Except Fault α} {shape : Shape} {a : α}
    (scalar : Reads readScalar v shape) (accepted : judge shape = .ok a) :
    Reads (readJudged judge) v a := fun n y enough stops =>
  readJudged_eq_ok_iff.mpr ⟨shape, scalar n y enough stops, accepted⟩

theorem Reads.into {reader : Nat → Reader α} {put : α → σ} {a : α} (reads : Reads reader v a) :
    Reads (fun n => Json.into put (reader n)) v (put a) := fun n y enough stops =>
  into_eq_ok_iff.mpr ⟨a, reads n y enough stops, rfl⟩

theorem Reads.unlessSeen {reader : Nat → Reader α} {seen : Option β} {name : String} {a : α}
    (reads : Reads reader v a) (unseen : seen = none) :
    Reads (fun n => Json.unlessSeen seen name (reader n)) v a := fun n y enough stops =>
  unlessSeen_eq_ok_iff.mpr ⟨unseen, reads n y enough stops⟩

/-- What is not `null` is read as if it could not be. -/
theorem Reads.optional {reader : Nat → Reader α} {a : α} (reads : Reads reader v a)
    (start : ∃ b t, v = b :: t ∧ isBlank b = false ∧ b ≠ 110) :
    Reads (fun n => readOptional (reader n)) v (some a) := by
  intro n y enough stops
  have read := reads n y enough stops
  obtain ⟨b, t, rfl, visible, noNull⟩ := start
  have first : skipBlanks (b :: (t ++ y)) = b :: (t ++ y) :=
    List.dropWhile_cons_of_neg (by simp [visible])
  rw [List.cons_append] at read ⊢
  simp only [readOptional, first, if_neg noNull, read]

end Combinators

theorem Fails.into {reader : Nat → Reader α} (fails : Fails reader v) (put : α → σ) :
    Fails (fun n => Json.into put (reader n)) v := by
  intro n y enough stops
  obtain ⟨fault, failed⟩ := fails n y enough stops
  exact ⟨fault, by simp [Json.into, failed]⟩

/-- What is there already is not read again. -/
theorem Fails.unlessSeen {reader : Nat → Reader α} {seen : Option β} (fails : Fails reader v)
    (name : String) : Fails (fun n => Json.unlessSeen seen name (reader n)) v := by
  intro n y enough stops
  cases seen with
  | some b => exact ⟨.duplicate name, rfl⟩
  | none => exact fails n y enough stops

/-- What is not `null` is a fault if it could not be `null`. -/
theorem Fails.optional {reader : Nat → Reader α} (fails : Fails reader v)
    (start : ∃ b t, v = b :: t ∧ isBlank b = false ∧ b ≠ 110) :
    Fails (fun n => readOptional (reader n)) v := by
  intro n y enough stops
  obtain ⟨fault, failed⟩ := fails n y enough stops
  obtain ⟨b, t, rfl, visible, noNull⟩ := start
  have first : skipBlanks (b :: (t ++ y)) = b :: (t ++ y) :=
    List.dropWhile_cons_of_neg (by simp [visible])
  rw [List.cons_append] at failed ⊢
  exact ⟨fault, by simp only [readOptional, first, noNull, if_false, failed]⟩

/-- A scalar that is not accepted is a fault. -/
theorem Reads.fails {judge : Shape → Except Fault α} {shape : Shape} {fault : Fault}
    (scalar : Reads readScalar v shape) (refused : judge shape = .error fault) :
    Fails (readJudged judge) v := by
  intro n y enough stops
  have read := scalar n y enough stops
  exact ⟨fault, by simp only [readJudged, read, refused]⟩

theorem reads_nullWord : Reads readScalar nullWord .null := fun _ _ _ _ => rfl

theorem reads_renderBool (b : Bool) : Reads readScalar (renderBool b) (.bool b) := by
  intro n y _ _
  cases b <;> rfl

theorem reads_readString (t : String) : Reads readString (renderText t) t :=
  (reads_renderText t).judged rfl

theorem reads_readInt64 {z : Int} (low : -twoTo 63 ≤ z) (high : z < twoTo 63) :
    Reads readInt64 (renderInt z) z := by
  have further : (twoTo 63 : Int) < twoTo 64 := by decide
  refine (reads_renderInt low (Int.lt_trans high further)).judged ?_
  simp only [high, if_true]

/-! ## Lists -/

/-- What may stand as an item of a list: it begins with something that is not passed over, and that
    does not close the list. -/
def IsItem (v : Octets) : Prop := ∃ b t, v = b :: t ∧ isBlank b = false ∧ b ≠ 93

def separator (first : Bool) : Octets := if first then [] else [44]

def joined (first : Bool) (parts : List Octets) : Octets :=
  if first then commaSeparated parts else parts.flatMap (44 :: ·)

theorem joined_nil (first : Bool) : joined first [] = [] := by cases first <;> rfl

theorem joined_cons (first : Bool) (part : Octets) (parts : List Octets) :
    joined first (part :: parts) = separator first ++ part ++ joined false parts := by
  have first' : commaSeparated (part :: parts) = part ++ parts.flatMap (44 :: ·) := by
    induction parts generalizing part with
    | nil => simp [commaSeparated]
    | cons next parts ih => simp [commaSeparated, ih]
  cases first with
  | true => simp [joined, separator, first']
  | false => simp [joined, separator]

/-- What follows a part begins with a comma or with the closing mark. -/
theorem stops_joined {parts : List Octets} {b : UInt8} {y : Octets}
    (closing : Octets.isDigit b = false ∧ b ≠ 46 ∧ b ≠ 101 ∧ b ≠ 69) :
    Stops (joined false parts ++ b :: y) := by
  cases parts with
  | nil =>
    intro b' head
    cases head
    exact closing
  | cons part parts =>
    intro b' head
    cases head
    decide

theorem nextItem_separator {v : Octets} (isItem : IsItem v) (first : Bool) (y : Octets) :
    nextItem first (separator first ++ (v ++ y)) = .ok (some (v ++ y)) := by
  obtain ⟨b, t, rfl, visible, noClosing⟩ := isItem
  have start : skipBlanks (b :: (t ++ y)) = b :: (t ++ y) :=
    List.dropWhile_cons_of_neg (by simp [visible])
  cases first with
  | true => simp [separator, nextItem, start, noClosing]
  | false =>
    have comma : skipBlanks (44 :: b :: (t ++ y)) = 44 :: b :: (t ++ y) := rfl
    simp [separator, nextItem, comma, start, noClosing]

section Elements

variable {α : Type} {item : Reader α} {reader : Nat → Reader α} {render : α → Octets}

theorem elements_item {n : Nat} {first : Bool} {seen : List α} {a : α} {v y : Octets}
    (isItem : IsItem v) (read : item (v ++ y) = .ok (a, y)) :
    elements item (n + 1) first seen (separator first ++ v ++ y) =
      elements item n false (a :: seen) y := by
  rw [List.append_assoc]
  simp only [elements, nextItem_separator isItem, read]

theorem elements_bracket (n : Nat) (first : Bool) (seen : List α) (y : Octets) :
    elements item (n + 1) first seen (93 :: y) = .ok (seen.reverse, y) := by
  have start : skipBlanks (93 :: y) = 93 :: y := rfl
  simp [elements, nextItem, closeList, start]

theorem elements_joined {items : List α} (each : ∀ a ∈ items, Reads reader (render a) a)
    (isItem : ∀ a ∈ items, IsItem (render a)) {rounds n : Nat} (first : Bool) (seen : List α)
    {y : Octets} (within : (joined first (items.map render) ++ 93 :: y).length < rounds)
    (enough : (joined first (items.map render) ++ 93 :: y).length < n) :
    elements (reader rounds) n first seen (joined first (items.map render) ++ 93 :: y) =
      .ok (seen.reverse ++ items, y) := by
  induction items generalizing n first seen with
  | nil =>
    cases n with
    | zero => contradiction
    | succ n => simpa [joined_nil] using elements_bracket n first seen y
  | cons a items ih =>
    cases n with
    | zero => contradiction
    | succ n =>
      simp only [List.map_cons, joined_cons, List.append_assoc] at within enough ⊢
      -- An item is not empty, so each round leaves less.
      have shorter : (joined false (items.map render) ++ 93 :: y).length < n := by
        obtain ⟨b, t, same, _⟩ := isItem a List.mem_cons_self
        simp only [same, List.length_append, List.length_cons] at enough ⊢
        omega
      have read := each a List.mem_cons_self rounds (joined false (items.map render) ++ 93 :: y)
        (by simp only [List.length_append] at within ⊢; omega) (stops_joined (by decide))
      rw [← List.append_assoc, elements_item (isItem a List.mem_cons_self) read,
        ih (fun b later => each b (List.mem_cons_of_mem a later))
          (fun b later => isItem b (List.mem_cons_of_mem a later)) false (a :: seen)
          (by simp only [List.length_append] at within ⊢; omega) shorter]
      simp

theorem reads_renderItems {items : List α} (each : ∀ a ∈ items, Reads reader (render a) a)
    (isItem : ∀ a ∈ items, IsItem (render a)) :
    Reads (fun n => readList (reader n) n) (renderItems (items.map render)) items := by
  intro n y enough _
  have written : renderItems (items.map render) ++ y =
      91 :: (joined true (items.map render) ++ 93 :: y) := by
    simp [renderItems, joined]
  rw [written] at enough ⊢
  have opened : ∀ s : Octets, readScalar n (91 :: s) = .ok (.sequence, 91 :: s) := fun _ => rfl
  rw [List.length_cons] at enough
  simp only [readList, opened, List.drop_succ_cons, List.drop_zero]
  exact elements_joined each isItem true [] (by omega) (by omega)

end Elements

/-! ## Objects -/

section Objects

variable {σ : Type} {member : σ → String → Reader σ}

theorem members_renderMember {n : Nat} {first : Bool} {state : σ} {name : String}
    {value y : Octets} (enough : (renderMember name value ++ y).length ≤ n) :
    members member (n + 1) first state (separator first ++ renderMember name value ++ y) =
      match member state name (value ++ y) with
      | .error fault => .error fault
      | .ok (state', rest) => members member n false state' rest := by
  have next : nextName first (separator first ++ renderMember name value ++ y) =
      .ok (some ((Octets.ofString name).flatMap escapeOctet ++ 34 :: 58 :: (value ++ y))) := by
    cases first with
    | true => simp [separator, renderMember, renderText, nextName, skipBlanks, isBlank]
    | false => simp [separator, renderMember, renderText, nextName, skipBlanks, isBlank]
  have named := readText_renderText (n := n + 1) (t := name) (y := 58 :: (value ++ y)) (by
    simp only [renderMember, List.length_append, List.length_cons] at enough ⊢
    omega)
  have colon : readColon (58 :: (value ++ y)) = .ok (value ++ y) := by
    simp [readColon, skipBlanks, isBlank]
  exact members_succ next named colon

theorem members_brace (n : Nat) (first : Bool) (state : σ) (y : Octets) :
    members member (n + 1) first state (125 :: y) = .ok (state, y) := by
  simp [members, nextName, afterBrace, skipBlanks, isBlank]

end Objects

/-! ## Records -/

section Records

variable {α σ : Type} {member : Nat → σ → String → Reader σ}

/-- Members that are read one after the other lead from one state to another. -/
inductive Fills (member : Nat → σ → String → Reader σ) : σ → List (String × Octets) → σ → Prop
  | nil {state} : Fills member state [] state
  | cons {state next last name value rest} (read : Reads (fun n => member n state name) value next)
      (later : Fills member next rest last) : Fills member state ((name, value) :: rest) last

def tailOf (first : Bool) (parts : List (String × Octets)) (y : Octets) : Octets :=
  joined first (parts.map fun m => renderMember m.1 m.2) ++ 125 :: y

theorem length_tailOf_lt {first : Bool} {part : String × Octets} {parts : List (String × Octets)}
    {y : Octets} {n : Nat} (enough : (tailOf first (part :: parts) y).length < n + 1) :
    (tailOf false parts y).length < n := by
  simp only [tailOf, List.map_cons, joined_cons, renderMember, renderText, List.length_append,
    List.length_cons] at enough ⊢
  omega

theorem length_value_lt {first : Bool} {name : String} {value : Octets}
    {parts : List (String × Octets)} {y : Octets} {n : Nat}
    (enough : (tailOf first ((name, value) :: parts) y).length < n) :
    (value ++ tailOf false parts y).length < n := by
  simp only [tailOf, List.map_cons, joined_cons, renderMember, List.length_append,
    List.length_cons] at enough ⊢
  omega

theorem members_tailOf {parts : List (String × Octets)} {state : σ} {name : String}
    {value : Octets} {rounds n : Nat} {first : Bool} {y : Octets}
    (enough : (tailOf first ((name, value) :: parts) y).length < n + 1) :
    members (member rounds) (n + 1) first state (tailOf first ((name, value) :: parts) y) =
      match member rounds state name (value ++ tailOf false parts y) with
      | .error fault => .error fault
      | .ok (state', rest) => members (member rounds) n false state' rest := by
  simp only [tailOf, List.map_cons, joined_cons, List.append_assoc] at enough ⊢
  rw [← List.append_assoc, members_renderMember
    (by simp only [List.length_append] at enough ⊢; omega)]

/-- A member that is read leads to the next one. -/
theorem members_of_reads {parts : List (String × Octets)} {state next : σ} {name : String}
    {value : Octets} (read : Reads (fun n => member n state name) value next) {rounds n : Nat}
    {first : Bool} {y : Octets}
    (within : (tailOf first ((name, value) :: parts) y).length < rounds)
    (enough : (tailOf first ((name, value) :: parts) y).length < n + 1) :
    members (member rounds) (n + 1) first state (tailOf first ((name, value) :: parts) y) =
      members (member rounds) n false next (tailOf false parts y) := by
  have found : member rounds state name (value ++ tailOf false parts y) =
      .ok (next, tailOf false parts y) :=
    read rounds _ (length_value_lt within) (stops_joined (by decide))
  rw [members_tailOf enough, found]

theorem members_joined {parts : List (String × Octets)} {state last : σ}
    (fills : Fills member state parts last) {rounds n : Nat} (first : Bool) {y : Octets}
    (within : (tailOf first parts y).length < rounds) (enough : (tailOf first parts y).length < n) :
    members (member rounds) n first state (tailOf first parts y) = .ok (last, y) := by
  induction fills generalizing n first with
  | nil =>
    cases n with
    | zero => contradiction
    | succ n => simpa [tailOf, joined_nil] using members_brace n first _ y
  | cons read _ ih =>
    cases n with
    | zero => contradiction
    | succ n =>
      rw [members_of_reads read within enough]
      exact ih false (length_tailOf_lt (Nat.lt_succ_of_lt within)) (length_tailOf_lt enough)

theorem Fills.append {parts parts' : List (String × Octets)} {state mid last : σ}
    (fills : Fills member state parts mid) (fills' : Fills member mid parts' last) :
    Fills member state (parts ++ parts') last := by
  induction fills with
  | nil => exact fills'
  | cons read _ ih => exact .cons read (ih fills')

/-- Reading members comes to the first one that is not among those that are read. -/
theorem members_of_fills {before after : List (String × Octets)} {state mid : σ} {name : String}
    {value : Octets} (fills : Fills member state before mid) {rounds n : Nat} (first : Bool)
    {y : Octets}
    (within : (tailOf first (before ++ (name, value) :: after) y).length < rounds)
    (enough : (tailOf first (before ++ (name, value) :: after) y).length < n) :
    (value ++ tailOf false after y).length < rounds ∧ ∃ k,
      members (member rounds) n first state (tailOf first (before ++ (name, value) :: after) y) =
        match member rounds mid name (value ++ tailOf false after y) with
        | .error fault => .error fault
        | .ok (state', rest) => members (member rounds) k false state' rest := by
  induction fills generalizing n first with
  | nil =>
    cases n with
    | zero => contradiction
    | succ n => exact ⟨length_value_lt within, n, members_tailOf enough⟩
  | cons read _ ih =>
    cases n with
    | zero => contradiction
    | succ n =>
      rw [List.cons_append] at within enough ⊢
      rw [members_of_reads read within enough]
      exact ih false (length_tailOf_lt (Nat.lt_succ_of_lt within)) (length_tailOf_lt enough)

/-- Reading members ends at the first one that is a fault wherever it stands. -/
theorem members_of_fault {before after : List (String × Octets)} {state mid : σ} {name : String}
    {value : Octets} {fault : Fault} (fills : Fills member state before mid) {rounds n : Nat}
    (fails : ∀ s, member rounds mid name s = .error fault) (first : Bool) {y : Octets}
    (within : (tailOf first (before ++ (name, value) :: after) y).length < rounds)
    (enough : (tailOf first (before ++ (name, value) :: after) y).length < n) :
    members (member rounds) n first state (tailOf first (before ++ (name, value) :: after) y) =
      .error fault := by
  obtain ⟨_, k, come⟩ := members_of_fills fills first within enough
  rw [come, fails]

/-- Reading members ends at the first value that is a fault. -/
theorem members_of_fails {before after : List (String × Octets)} {state mid : σ} {name : String}
    {value : Octets} (fills : Fills member state before mid)
    (fails : Fails (fun n => member n mid name) value) {rounds n : Nat} (first : Bool) {y : Octets}
    (within : (tailOf first (before ++ (name, value) :: after) y).length < rounds)
    (enough : (tailOf first (before ++ (name, value) :: after) y).length < n) :
    ∃ fault, members (member rounds) n first state
      (tailOf first (before ++ (name, value) :: after) y) = .error fault := by
  obtain ⟨short, k, come⟩ := members_of_fills fills first within enough
  obtain ⟨fault, failed⟩ : ∃ fault, member rounds mid name (value ++ tailOf false after y) =
      .error fault := fails rounds _ short (stops_joined (by decide))
  exact ⟨fault, by rw [come, failed]⟩

theorem Fills.reads {parts : List (String × Octets)} {state last : σ}
    (fills : Fills member state parts last) :
    Reads (fun n => members (member n) n true state)
      (commaSeparated (parts.map fun m => renderMember m.1 m.2) ++ [125]) last := by
  intro n y enough _
  rw [List.append_assoc] at enough ⊢
  exact members_joined fills true enough enough

/-- A record that is written as an object is read as one. -/
theorem Reads.record {wanted : String} {ofObject ofList : Nat → Reader α}
    {parts : List (String × Octets)} {a : α} (object : Reads ofObject
      (commaSeparated (parts.map fun m => renderMember m.1 m.2) ++ [125]) a) :
    Reads (fun n => readRecord wanted (ofObject n) (ofList n) n) (renderMembers parts) a := by
  intro n y enough stops
  have opened : ∀ s : Octets, readScalar n (123 :: s) = .ok (.map, 123 :: s) := fun _ => rfl
  simp only [renderMembers, List.cons_append, List.length_cons] at enough ⊢
  simp only [readRecord, opened, List.drop_succ_cons, List.drop_zero]
  exact object n y (by omega) stops

/-- A text of nothing but one value. -/
theorem Reads.document {reader : Nat → Reader α} {v : Octets} {a : α} (reads : Reads reader v a) :
    document reader v = .ok a := by
  have read := reads (v.length + 1) [] (by simp) nofun
  rw [List.append_nil] at read
  simp [Json.document, read, skipBlanks]

end Records

end Tollgate.Json
