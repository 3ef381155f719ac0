import Mathlib.Algebra.Group.Nat.Defs
import Tollgate.Base64

/-! # Base64 is read back

Decoding undoes encoding in both alphabets, with padding and without (`decode_encode`).  Without
padding the other direction holds too: a text that is decoded is the one that encoding makes
(`decode_absent_eq_ok_iff`), and `canonical_iff` says which texts these are.  Both rest on
`sextets_ofSextets`, where the bits that no octet uses have to be zero.

What stands in a text without padding are symbols of the alphabet, which are visible ASCII characters
and no dots, so that such a text can stand in a header and between dots.
-/

namespace Tollgate.Base64

/-! ## Regrouping -/

theorem sextets_lt (o : Octets) : ∀ n ∈ sextets o, n < 64 := by
  fun_induction sextets o with
  | case1 => exact nofun
  | case2 x =>
    have := x.toNat_lt
    simp
    omega
  | case3 x y =>
    have := x.toNat_lt
    have := y.toNat_lt
    simp
    omega
  | case4 x y z rest ih =>
    have := x.toNat_lt
    have := y.toNat_lt
    have := z.toNat_lt
    simp only [List.forall_mem_cons]
    exact ⟨by omega, by omega, by omega, by omega, ih⟩

theorem ofSextets_sextets (o : Octets) : ofSextets (sextets o) = o := by
  have octet : ∀ (b : UInt8) (n : Nat), n = b.toNat → UInt8.ofNat n = b := by
    rintro b n rfl
    exact UInt8.ofNat_toNat
  fun_induction sextets o with
  | case1 => rfl
  | case2 x => rw [ofSextets, octet x _ (by omega)]
  | case3 x y =>
    have := y.toNat_lt
    rw [ofSextets, octet x _ (by omega), octet y _ (by omega)]
  | case4 x y z rest ih =>
    have := y.toNat_lt
    have := z.toNat_lt
    rw [ofSextets, octet x _ (by omega), octet y _ (by omega), octet z _ (by omega), ih]

theorem spareBits_sextets (o : Octets) : spareBits (sextets o) = 0 := by
  fun_induction sextets o with
  | case1 => rfl
  | case2 x =>
    rw [spareBits]
    omega
  | case3 x y =>
    rw [spareBits]
    omega
  | case4 x y z rest ih => rwa [spareBits]

/-- No single symbol is left over. -/
theorem length_sextets (o : Octets) : (sextets o).length % 4 ≠ 1 := by
  fun_induction sextets o with
  | case1 | case2 | case3 => simp
  | case4 x y z rest ih =>
    simp only [List.length_cons]
    omega

/-! ## Symbols -/

theorem value?_symbol (a : Alphabet) {n : Nat} (small : n < 64) : a.value? (a.symbol n) = some n := by
  have each : ∀ a : Alphabet, ∀ n : Fin 64, a.value? (a.symbol n) = some n.val := by
    intro a
    cases a <;> decide
  exact each a ⟨n, small⟩

theorem value?_padSign (a : Alphabet) : a.value? padSign = none := by cases a <;> rfl

theorem values_map_symbol (a : Alphabet) {ns : List Nat} (small : ∀ n ∈ ns, n < 64) (offset : Nat) :
    values a offset (ns.map a.symbol) = .ok ns := by
  induction ns generalizing offset with
  | nil => rfl
  | cons n ns ih =>
    obtain ⟨first, later⟩ := List.forall_mem_cons.mp small
    simp only [List.map_cons, values, value?_symbol a first, ih later]
    rfl

/-! ## Texts -/

def padCount (p : Padding) (count : Nat) : Nat :=
  match p with
  | .absent => 0
  | .required => (4 - count % 4) % 4

theorem encode_eq (a : Alphabet) (p : Padding) (o : Octets) :
    encode a p o = (sextets o).map a.symbol ++
      List.replicate (padCount p (sextets o).length) padSign := by
  cases p with
  | absent => simp [encode, padCount]
  | required => simp [encode, padCount]

theorem paddingFault?_replicate (p : Padding) {count : Nat} (whole : count % 4 ≠ 1) :
    paddingFault? p count (List.replicate (padCount p count) padSign) = none := by
  cases p with
  | absent => rfl
  | required =>
    rw [padCount]
    by_cases full : count % 4 = 0
    · simp [paddingFault?, full]
    -- Two or three symbols in the last group, filled up to four.
    · have some : (List.replicate ((4 - count % 4) % 4) padSign).isEmpty = false := by
        simp only [List.isEmpty_eq_false_iff, ne_eq, List.replicate_eq_nil_iff]
        omega
      have two : ¬count % 4 < 2 := by omega
      have four : ¬4 < count % 4 + (4 - count % 4) % 4 := by omega
      have pads : (List.replicate ((4 - count % 4) % 4) padSign).any (· ≠ padSign) = false := by
        simp
      have ends : (count + (4 - count % 4) % 4) % 4 = 0 := by omega
      simp only [paddingFault?, some, List.length_replicate, two, four, pads, ends, decide_false,
        Bool.or_self, Bool.false_eq_true, if_false, if_true]

theorem remainderFault?_encode (a : Alphabet) (p : Padding) (o : Octets) :
    remainderFault? a (encode a p o) = none := by
  have whole := length_sextets o
  have length : (encode a p o).length % 4 ≠ 1 := by
    simp only [encode_eq, List.length_append, List.length_map, List.length_replicate]
    cases p with
    | absent => exact whole
    | required =>
      simp only [padCount]
      omega
  simp [remainderFault?, length]

theorem decode_encode (a : Alphabet) (p : Padding) (o : Octets) :
    decode a p (encode a p o) = .ok o := by
  -- No symbol is a padding sign, so that the padding begins where the symbols end.
  have symbols : ∀ b ∈ (sextets o).map a.symbol, decide (b ≠ padSign) = true := by
    intro b member
    obtain ⟨n, among, rfl⟩ := List.mem_map.mp member
    refine decide_eq_true fun same => ?_
    have value := value?_symbol a (sextets_lt o n among)
    rw [same, value?_padSign] at value
    contradiction
  have before : (encode a p o).takeWhile (· ≠ padSign) = (sextets o).map a.symbol := by
    rw [encode_eq, List.takeWhile_append_of_pos symbols]
    simp
  have behind : (encode a p o).dropWhile (· ≠ padSign) =
      List.replicate (padCount p (sextets o).length) padSign := by
    rw [encode_eq, List.dropWhile_append_of_pos symbols]
    simp
  have padded := paddingFault?_replicate p (length_sextets o)
  rw [← List.length_map (f := a.symbol)] at padded
  simp only [decode, remainderFault?_encode, before, behind, values_map_symbol a (sextets_lt o),
    List.length_map] at padded ⊢
  rw [padded, spareBits_sextets, ofSextets_sextets]
  rfl

/-! ## What is accepted -/

theorem symbol_of_value? {a : Alphabet} {b : UInt8} {n : Nat} (value : a.value? b = some n) :
    n < 64 ∧ a.symbol n = b := by
  have each : ∀ a : Alphabet, ∀ b : Fin 256, ∀ n ∈ a.value? (UInt8.ofNat b.val),
      n < 64 ∧ a.symbol n = UInt8.ofNat b.val := by
    intro a
    cases a <;> decide +kernel
  simpa using each a ⟨b.toNat, b.toNat_lt⟩ n (by simpa using value)

theorem of_values_eq_ok {a : Alphabet} {offset : Nat} {s : Octets} {ns : List Nat}
    (read : values a offset s = .ok ns) : (∀ n ∈ ns, n < 64) ∧ ns.map a.symbol = s := by
  induction s generalizing offset ns with
  | nil =>
    cases read
    simp
  | cons b s ih =>
    rw [values] at read
    split at read
    · contradiction
    · next n value =>
      obtain ⟨small, symbol⟩ := symbol_of_value? value
      obtain ⟨ms, later, rfl⟩ : ∃ ms, values a (offset + 1) s = .ok ms ∧ n :: ms = ns := by
        cases later : values a (offset + 1) s with
        | error e => simp [later, Except.map] at read
        | ok ms => exact ⟨ms, rfl, by simpa [later, Except.map] using read⟩
      obtain ⟨smallLater, symbols⟩ := ih later
      refine ⟨List.forall_mem_cons.mpr ⟨small, smallLater⟩, ?_⟩
      rw [List.map_cons, symbol, symbols]

/-- Regrouping loses nothing when the bits that make no whole octet are zero. -/
theorem sextets_ofSextets {ns : List Nat} (small : ∀ n ∈ ns, n < 64) (whole : ns.length % 4 ≠ 1)
    (spare : spareBits ns = 0) : sextets (ofSextets ns) = ns := by
  fun_induction ofSextets ns with
  | case1 a b c d rest ih =>
    simp only [List.forall_mem_cons] at small
    obtain ⟨a64, b64, c64, d64, later⟩ := small
    have wholeLater : rest.length % 4 ≠ 1 := by
      simp only [List.length_cons] at whole
      omega
    rw [sextets, ih later wholeLater (by simpa [spareBits] using spare)]
    simp only [UInt8.toNat_ofNat', List.cons.injEq, and_true]
    omega
  | case2 a b c =>
    simp only [List.forall_mem_cons] at small
    -- The last group leaves bits over, and these are zero.
    simp only [spareBits] at spare
    simp only [sextets, UInt8.toNat_ofNat', List.cons.injEq, and_true]
    omega
  | case3 a b =>
    simp only [List.forall_mem_cons] at small
    simp only [spareBits] at spare
    simp only [sextets, UInt8.toNat_ofNat', List.cons.injEq, and_true]
    omega
  | case4 ns full three two =>
    match ns with
    | [] => rfl
    | [a] => simp at whole
    | [a, b] => exact absurd rfl (two a b)
    | [a, b, c] => exact absurd rfl (three a b c)
    | a :: b :: c :: d :: rest => exact absurd rfl (full a b c d rest)

/-- A padding sign is a fault wherever it stands. -/
theorem takeWhile_of_paddingFault? {count : Nat} {s : Octets}
    (unpadded : paddingFault? .absent count (s.dropWhile (· ≠ padSign)) = none) :
    s.takeWhile (· ≠ padSign) = s := by
  have parts := List.takeWhile_append_dropWhile (p := (· ≠ padSign)) (l := s)
  by_cases pads : s.dropWhile (· ≠ padSign) = []
  · rwa [pads, List.append_nil] at parts
  · simp only [paddingFault?, List.isEmpty_iff, pads, if_false] at unpadded
    split at unpadded <;> contradiction

theorem length_of_remainderFault? {a : Alphabet} {s : Octets}
    (whole : remainderFault? a s = none) : s.length % 4 ≠ 1 := by
  intro single
  simp only [remainderFault?, single, if_true] at whole
  split at whole
  · split at whole <;> contradiction
  · contradiction

/-- Without padding, each octet string has one text only. -/
theorem decode_absent_eq_ok_iff {a : Alphabet} {s o : Octets} :
    decode a .absent s = .ok o ↔ s = encode a .absent o := by
  constructor
  · intro decoded
    simp only [decode] at decoded
    split at decoded
    · contradiction
    · next whole =>
      split at decoded
      · contradiction
      · next ns read =>
        split at decoded
        · contradiction
        · next unpadded =>
          split at decoded
          · next spare =>
            cases decoded
            -- No symbol was taken for padding, so the values are those of the whole text.
            rw [takeWhile_of_paddingFault? unpadded] at read
            obtain ⟨small, rfl⟩ := of_values_eq_ok read
            have length := length_of_remainderFault? whole
            rw [List.length_map] at length
            rw [encode, sextets_ofSextets small length spare]
          · contradiction
  · rintro rfl
    exact decode_encode a .absent o

def Alphabet.letters : Alphabet → Octets
  | .standard =>
    Octets.ofString "ABCDEFGHIJKLMNOPQRSTUVWXYZabcdefghijklmnopqrstuvwxyz0123456789+/"
  | .urlSafe =>
    Octets.ofString "ABCDEFGHIJKLMNOPQRSTUVWXYZabcdefghijklmnopqrstuvwxyz0123456789-_"

theorem Alphabet.letters_eq (a : Alphabet) : a.letters = (List.range 64).map a.symbol := by
  cases a <;> decide +kernel

theorem Alphabet.idxOf_symbol (a : Alphabet) {n : Nat} (small : n < 64) :
    a.letters.idxOf (a.symbol n) = n := by
  have each : ∀ a : Alphabet, ∀ n : Fin 64, a.letters.idxOf (a.symbol n) = n.val := by
    intro a
    cases a <;> decide +kernel
  exact each a ⟨n, small⟩

/-- A text that is the unpadded base64 of some octets: a symbol has six bits and an octet eight, and
    the bits that are left over are zero. -/
structure Canonical (a : Alphabet) (s : Octets) : Prop where
  letters : ∀ b ∈ s, b ∈ a.letters
  whole : s.length % 4 ≠ 1
  unused : ∀ b ∈ s.getLast?, a.letters.idxOf b % 2 ^ (6 * s.length % 8) = 0

theorem spareBits_eq {ns : List Nat} (whole : ns.length % 4 ≠ 1) :
    spareBits ns = ns.getLastD 0 % 2 ^ (6 * ns.length % 8) := by
  fun_induction spareBits ns with
  | case1 a b c d rest ih =>
    -- A whole group leaves no bits over.
    have turns : 6 * (a :: b :: c :: d :: rest).length % 8 = 6 * rest.length % 8 := by
      simp only [List.length_cons]
      omega
    rw [turns]
    cases rest with
    | nil => simp [spareBits, Nat.mod_one]
    | cons e rest =>
      rw [ih (by simp only [List.length_cons] at whole ⊢; omega)]
      simp
  | case2 a b c => simp
  | case3 a b => simp
  | case4 ns full three two =>
    match ns with
    | [] => rfl
    | [a] => simp at whole
    | [a, b] => exact absurd rfl (two a b)
    | [a, b, c] => exact absurd rfl (three a b c)
    | a :: b :: c :: d :: rest => exact absurd rfl (full a b c d rest)

theorem exists_numbers {a : Alphabet} {s : Octets} (letters : ∀ b ∈ s, b ∈ a.letters) :
    ∃ ns : List Nat, (∀ n ∈ ns, n < 64) ∧ ns.map a.symbol = s := by
  induction s with
  | nil => exact ⟨[], nofun, rfl⟩
  | cons b s ih =>
    obtain ⟨letter, later⟩ := List.forall_mem_cons.mp letters
    obtain ⟨n, among, symbol⟩ := List.mem_map.mp (a.letters_eq ▸ letter)
    obtain ⟨ns, small, symbols⟩ := ih later
    refine ⟨n :: ns, List.forall_mem_cons.mpr ⟨List.mem_range.mp among, small⟩, ?_⟩
    rw [List.map_cons, symbol, symbols]

theorem idxOf_getLast?_iff {a : Alphabet} {ns : List Nat} (small : ∀ n ∈ ns, n < 64) (m : Nat) :
    (∀ b ∈ (ns.map a.symbol).getLast?, a.letters.idxOf b % m = 0) ↔ ns.getLastD 0 % m = 0 := by
  rw [List.getLast?_map, List.getLastD_eq_getLast?]
  cases last : ns.getLast? with
  | none => simp
  | some n => simp [a.idxOf_symbol (small n (List.mem_of_getLast? last))]

/-- The canonical texts are the ones that encoding makes. -/
theorem canonical_iff {a : Alphabet} {s : Octets} :
    Canonical a s ↔ ∃ o, s = encode a .absent o := by
  constructor
  · rintro ⟨letters, whole, unused⟩
    obtain ⟨ns, small, rfl⟩ := exists_numbers letters
    rw [List.length_map] at whole unused
    have spare := (idxOf_getLast?_iff small _).mp unused
    rw [← spareBits_eq whole] at spare
    exact ⟨ofSextets ns, by rw [encode, sextets_ofSextets small whole spare]⟩
  · rintro ⟨o, rfl⟩
    have whole := length_sextets o
    refine ⟨fun b member => ?_, by rwa [encode, List.length_map], ?_⟩
    · obtain ⟨n, among, rfl⟩ := List.mem_map.mp member
      rw [a.letters_eq]
      exact List.mem_map_of_mem (List.mem_range.mpr (sextets_lt o n among))
    · rw [encode, List.length_map, idxOf_getLast?_iff (sextets_lt o), ← spareBits_eq whole]
      exact spareBits_sextets o

/-! ## Where a text can stand -/

theorem encode_ne_nil (a : Alphabet) (p : Padding) {o : Octets} (nonempty : o ≠ []) :
    encode a p o ≠ [] := by
  rw [encode_eq]
  match o with
  | [] => contradiction
  | [x] => simp [sextets]
  | [x, y] => simp [sextets]
  | x :: y :: z :: rest => simp [sextets]

theorem lt_of_mem_encode {a : Alphabet} {p : Padding} {o : Octets} {b : UInt8}
    (member : b ∈ encode a p o) : b < 128 := by
  have each : ∀ a : Alphabet, ∀ n : Fin 64, a.symbol n < 128 := by
    intro a
    cases a <;> decide
  rw [encode_eq] at member
  rcases List.mem_append.mp member with symbol | pad
  · obtain ⟨n, among, rfl⟩ := List.mem_map.mp symbol
    exact each a ⟨n, sextets_lt o n among⟩
  · obtain rfl := List.eq_of_mem_replicate pad
    decide

/-- Without padding a text in the URL-safe alphabet has visible characters only, and no dot. -/
theorem visible_of_mem_encode {o : Octets} {b : UInt8} (member : b ∈ encode .urlSafe .absent o) :
    33 ≤ b ∧ b ≤ 126 ∧ b ≠ 46 := by
  have each : ∀ n : Fin 64, 33 ≤ Alphabet.urlSafe.symbol n ∧ Alphabet.urlSafe.symbol n ≤ 126 ∧
      Alphabet.urlSafe.symbol n ≠ 46 := by decide
  obtain ⟨n, among, rfl⟩ := List.mem_map.mp member
  exact each ⟨n, sextets_lt o n among⟩

end Tollgate.Base64
