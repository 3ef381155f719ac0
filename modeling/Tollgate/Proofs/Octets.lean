import Mathlib.Algebra.Group.Nat.Defs
import Mathlib.Data.List.Induction
import Tollgate.Octets

/-! # Octets as text and as numbers

A text is known by its octets, and ASCII octets are a text (`Octets.ofString_asciiText`).  Texts are
in the order of their octets (`Octets.ofString_lt_ofString_iff`): in UTF-8 a smaller character has
smaller octets, and where two characters differ their octets do before either of them ends.

Writing a number in enough octets and reading these is the identity, and so is the other way round.
Both go by the last octet: `Octets.ofNat_succ` takes it off a number that is written, and
`Octets.toNat_append` puts it on one that is read.
-/

namespace Tollgate.Octets

/-! ## Texts -/

theorem ofString_ofList (cs : List Char) :
    ofString (String.ofList cs) = cs.flatMap String.utf8EncodeChar := by
  simp [ofString, List.utf8Encode]

theorem ofString_append (s t : String) : ofString (s ++ t) = ofString s ++ ofString t := by
  rw [← String.ofList_toList (s := s), ← String.ofList_toList (s := t), ← String.ofList_append]
  simp only [ofString_ofList, List.flatMap_append]

theorem ofString_injective {s t : String} (same : ofString s = ofString t) : s = t := by
  have decoded := toText?_ofString s
  rw [same, toText?_ofString] at decoded
  exact (Option.some.inj decoded).symm

def asciiText (o : Octets) : String := String.ofList (o.map fun b => Char.ofNat b.toNat)

theorem ofString_asciiText {o : Octets} (ascii : ∀ b ∈ o, b < 128) : ofString (asciiText o) = o := by
  have encoded : ∀ n : Fin 128, String.utf8EncodeChar (Char.ofNat n.val) = [UInt8.ofNat n.val] := by
    decide +kernel
  rw [asciiText, ofString_ofList, List.flatMap_map]
  induction o with
  | nil => rfl
  | cons b o ih =>
    have small : b.toNat < 128 := UInt8.lt_iff_toNat_lt.mp (ascii b List.mem_cons_self)
    have octet := encoded ⟨b.toNat, small⟩
    simp only [UInt8.ofNat_toNat] at octet
    rw [List.flatMap_cons, octet, ih fun c later => ascii c (List.mem_cons_of_mem b later)]
    rfl

theorem toTextLossy_of_ascii {o : Octets} (ascii : ∀ b ∈ o, b < 128) : toTextLossy o = asciiText o := by
  have decoded : toText? o = some (asciiText o) := by
    rw [← toText?_ofString, ofString_asciiText ascii]
  rw [toTextLossy, decoded]

/-! ## The order of texts -/

theorem ofNat_eq_ofNat_iff {m n : Nat} (small : m < 256) (small' : n < 256) :
    UInt8.ofNat m = UInt8.ofNat n ↔ m = n := by
  rw [← UInt8.toNat_inj, UInt8.toNat_ofNat', UInt8.toNat_ofNat', Nat.mod_eq_of_lt small,
    Nat.mod_eq_of_lt small']

/-- The octets of a smaller character come first, whatever follows them. -/
theorem utf8EncodeChar_append_lt {c d : Char} (below : c < d) (s t : Octets) :
    String.utf8EncodeChar c ++ s < String.utf8EncodeChar d ++ t := by
  have order : c.val.toNat < d.val.toNat := below
  have range : d.val.toNat < 0x110000 := by
    rcases d.valid with low | high
    · exact Nat.lt_trans low (by decide)
    · exact high.2
  simp only [String.utf8EncodeChar]
  generalize c.val.toNat = m at order ⊢
  generalize d.val.toNat = n at order range ⊢
  -- To the base 64 the highest digit that differs decides.
  have digit : m / 262144 < n / 262144 ∨ m / 262144 = n / 262144 ∧ m / 4096 < n / 4096 ∨
      m / 4096 = n / 4096 ∧ m / 64 < n / 64 ∨ m / 64 = n / 64 ∧ m % 64 < n % 64 := by
    omega
  have octet : ∀ {a b : Nat}, a < 256 → b < 256 → (UInt8.ofNat a < UInt8.ofNat b ↔ a < b) :=
    UInt8.ofNat_lt_iff_lt
  repeat' split
  all_goals
    simp (disch := omega) only [List.cons_append, List.nil_append, List.cons_lt_cons_iff, octet,
      ofNat_eq_ofNat_iff, Nat.add_lt_add_iff_right, Nat.add_right_cancel_iff]
  -- Encodings of different lengths differ in the first octet, and of the same length in a digit.
  any_goals omega
  rcases digit with first | ⟨same, second⟩ | ⟨same, third⟩ | ⟨same, last⟩
  · exact .inl (by omega)
  · exact .inr ⟨by omega, .inl (by omega)⟩
  · exact .inr ⟨by omega, .inr ⟨by omega, .inl (by omega)⟩⟩
  · exact .inr ⟨by omega, .inr ⟨by omega, .inr ⟨by omega, .inl last⟩⟩⟩

theorem flatMap_utf8EncodeChar_lt {cs ds : List Char} (below : cs < ds) :
    cs.flatMap String.utf8EncodeChar < ds.flatMap String.utf8EncodeChar := by
  induction below with
  | @nil d ds =>
    obtain ⟨b, more, encoded⟩ := List.exists_cons_of_ne_nil (String.utf8EncodeChar_ne_nil (c := d))
    rw [List.flatMap_cons, encoded]
    exact List.nil_lt_cons _ _
  | rel first =>
    rw [List.flatMap_cons, List.flatMap_cons]
    exact utf8EncodeChar_append_lt first _ _
  | cons _ ih =>
    rw [List.flatMap_cons, List.flatMap_cons]
    exact List.append_left_lt ih

/-- Texts are in the order of their octets. -/
theorem ofString_lt_ofString_iff {s t : String} : ofString s < ofString t ↔ s < t := by
  have forward : ∀ {s t : String}, s < t → ofString s < ofString t := by
    intro s t below
    rw [← String.ofList_toList (s := s), ← String.ofList_toList (s := t), ofString_ofList,
      ofString_ofList]
    exact flatMap_utf8EncodeChar_lt (String.lt_iff.mp below)
  refine ⟨fun below => ?_, forward⟩
  by_contra notBelow
  by_cases above : t < s
  · exact List.lt_asymm below (forward above)
  · obtain rfl : s = t := Std.Trichotomous.trichotomous (r := (· < ·)) s t notBelow above
    exact List.lt_irrefl _ below

/-! ## Numbers -/

theorem twoTo_eq (n : Nat) : twoTo (8 * n) = 256 ^ n := by
  rw [show (256 : Nat) = 2 ^ 8 from rfl, ← Nat.pow_mul]
  rfl

@[simp] theorem length_ofNat (size n : Nat) : (ofNat size n).length = size := by
  simp [ofNat]

theorem ofNat_succ (size n : Nat) :
    ofNat (size + 1) n = ofNat size (n / 256) ++ [UInt8.ofNat (n % 256)] := by
  simp only [ofNat, twoTo_eq, List.range_succ, List.map_append, List.map_singleton,
    Nat.add_sub_cancel, Nat.sub_self, Nat.pow_zero, Nat.div_one]
  congr 1
  refine List.map_congr_left fun i member => ?_
  -- Seen from the front an octet is at the same place, and one place further from the end.
  have place : size - i = size - 1 - i + 1 := by
    have := List.mem_range.mp member
    omega
  rw [place, Nat.pow_succ, Nat.mul_comm, Nat.div_div_eq_div_mul]

theorem toNat_append (o : Octets) (b : UInt8) : toNat (o ++ [b]) = toNat o * 256 + b.toNat := by
  simp [toNat]

theorem toNat_ofNat {size n : Nat} (fits : n < 256 ^ size) : toNat (ofNat size n) = n := by
  induction size generalizing n with
  | zero =>
    obtain rfl : n = 0 := by simpa using fits
    rfl
  | succ size ih =>
    have front : n / 256 < 256 ^ size := by
      rw [Nat.pow_succ] at fits
      exact Nat.div_lt_of_lt_mul (Nat.mul_comm _ _ ▸ fits)
    have last : (UInt8.ofNat (n % 256)).toNat = n % 256 := by
      rw [UInt8.toNat_ofNat']
      omega
    rw [ofNat_succ, toNat_append, ih front, last]
    omega

theorem toNat_lt (o : Octets) : toNat o < 256 ^ o.length := by
  induction o using List.reverseRecOn with
  | nil => decide
  | append_singleton o b ih =>
    have octet : b.toNat < 256 := b.toNat_lt
    rw [toNat_append, List.length_append, List.length_singleton, Nat.pow_succ]
    omega

theorem ofNat_toNat (o : Octets) : ofNat o.length (toNat o) = o := by
  induction o using List.reverseRecOn with
  | nil => rfl
  | append_singleton o b ih =>
    have octet : b.toNat < 256 := b.toNat_lt
    have front : (toNat o * 256 + b.toNat) / 256 = toNat o := by omega
    have last : (toNat o * 256 + b.toNat) % 256 = b.toNat := by omega
    rw [List.length_append, List.length_singleton, ofNat_succ, toNat_append, front, last, ih,
      UInt8.ofNat_toNat]

/-- A number needs no more octets than those it fits into. -/
theorem width_le_iff {n size : Nat} : width n ≤ size ↔ n < 256 ^ size := by
  rw [← twoTo_eq, width]
  split
  · next zero =>
    subst zero
    exact ⟨fun _ => Nat.two_pow_pos _, fun _ => Nat.zero_le _⟩
  · next nonzero =>
    have bits : n.log2 < 8 * size ↔ n < twoTo (8 * size) := Nat.log2_lt nonzero
    rw [← bits]
    omega

theorem lt_pow_width (n : Nat) : n < 256 ^ width n := width_le_iff.mp (Nat.le_refl _)

/-- A number with a given width does not fit into fewer octets. -/
theorem pow_le_of_width {n size : Nat} (width : size < width n) : 256 ^ size ≤ n :=
  Nat.not_lt.mp fun fits => Nat.not_le.mpr width (width_le_iff.mpr fits)

theorem width_toNat_le (o : Octets) : width (toNat o) ≤ o.length := width_le_iff.mpr (toNat_lt o)

/-- The first octet of a number that is written as short as possible is not zero. -/
theorem exists_ofNat_width {n : Nat} (positive : 0 < n) :
    ∃ b rest, ofNat (width n) n = b :: rest ∧ b ≠ 0 := by
  cases written : ofNat (width n) n with
  | nil =>
    have length := congrArg List.length written
    rw [length_ofNat, List.length_nil] at length
    have small := lt_pow_width n
    rw [length] at small
    omega
  | cons b rest =>
    refine ⟨b, rest, rfl, ?_⟩
    rintro rfl
    -- With a zero in front the rest would be the number already.
    have length := congrArg List.length written
    rw [length_ofNat, List.length_cons] at length
    have value := congrArg toNat written
    rw [toNat_ofNat (lt_pow_width n)] at value
    have same : toNat (0 :: rest) = toNat rest := by simp [toNat]
    have short := width_toNat_le rest
    rw [← same, ← value] at short
    omega

end Tollgate.Octets
