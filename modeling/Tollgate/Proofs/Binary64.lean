import Mathlib.Algebra.Order.Field.Power
import Mathlib.Data.Nat.Log
import Mathlib.Data.Rat.Floor
import Mathlib.Tactic.FieldSimp
import Mathlib.Tactic.Linarith
import Mathlib.Tactic.NormNum
import Mathlib.Tactic.Positivity
import Mathlib.Tactic.Ring
import Tollgate.Binary64

/-! # Rounding to binary64

`Magnitude.nearest?` answers a magnitude that is as near to its quotient as any other
(`nearest_of_nearest?`), and products and quotients of magnitudes inherit that, since they are rounded
once.  What is used of a rounding elsewhere follows from nearness alone: a number that has a magnitude
is rounded to it (`Nearest.exact`), no magnitude is jumped over (`Nearest.ge`), and the error is at
most half of the last place (`Nearest.error`).
-/

namespace Tollgate

theorem twoTo_pos (n : ℕ) : 0 < twoTo n := Nat.two_pow_pos n

theorem twoTo_eq_pow (n : ℕ) : (twoTo n : ℚ) = 2 ^ n := by
  simp [twoTo]

theorem twoTo_div_twoTo (z : ℤ) : (twoTo z.toNat : ℚ) / twoTo (-z).toNat = 2 ^ z := by
  rw [twoTo_eq_pow, twoTo_eq_pow]
  obtain nonneg | neg := le_total 0 z
  · obtain ⟨n, rfl⟩ := Int.eq_ofNat_of_zero_le nonneg
    simp
  · obtain ⟨n, same⟩ := Int.eq_ofNat_of_zero_le (Int.neg_nonneg.mpr neg)
    obtain rfl : z = -n := by omega
    simp

theorem abs_sub_le_of_half {r : ℤ} {q : ℚ} (half : |r - q| ≤ 1 / 2) (m : ℤ) : |r - q| ≤ |m - q| := by
  by_cases same : m = r
  · rw [same]
  · have apart : (1 : ℚ) ≤ |(m : ℚ) - r| := by
      exact_mod_cast Int.one_le_abs (sub_ne_zero.mpr same)
    have triangle := abs_sub_le (m : ℚ) q r
    rw [abs_sub_comm q] at triangle
    linarith

namespace Magnitude

theorem abs_roundDiv_sub_le (num : ℕ) {den : ℕ} (positive : 0 < den) :
    |(roundDiv num den : ℚ) - num / den| ≤ 1 / 2 := by
  have split : (num : ℚ) / den = (num / den : ℕ) + (num % den : ℕ) / den := by
    have whole : (den : ℚ) * (num / den : ℕ) + (num % den : ℕ) = num := by
      exact_mod_cast Nat.div_add_mod num den
    field_simp
    linarith
  have rest : (num % den : ℕ) / (den : ℚ) < 1 := by
    rw [div_lt_one (by positivity)]
    exact_mod_cast Nat.mod_lt num positive
  -- It remains to see on which side of one half the remainder lies.
  rw [split, roundDiv, abs_le]
  have twice : ∀ {a : ℕ}, a * 2 ≤ den → (a : ℚ) / den ≤ 1 / 2 := by
    intro a bound
    rw [div_le_div_iff₀ (by positivity) (by norm_num)]
    exact_mod_cast (by omega : a * 2 ≤ 1 * den)
  have half : ∀ {a : ℕ}, den ≤ a * 2 → 1 / 2 ≤ (a : ℚ) / den := by
    intro a bound
    rw [div_le_div_iff₀ (by norm_num) (by positivity)]
    exact_mod_cast (by omega : 1 * den ≤ a * 2)
  have nonneg : (0 : ℚ) ≤ (num % den : ℕ) / (den : ℚ) := by positivity
  split
  · next below =>
    have := twice (a := num % den) (by omega)
    constructor <;> linarith
  · next notBelow =>
    have := half (a := num % den) (by omega)
    split
    · push_cast
      constructor <;> linarith
    · next notAbove =>
      have := twice (a := num % den) (by omega)
      split
      · constructor <;> linarith
      · push_cast
        constructor <;> linarith

/-! ## Values -/

def value (x : Magnitude) : ℚ := x.mantissa * 2 ^ x.exponent

/-- No magnitude is nearer to a number, nor is one whose mantissa has reached `2 ^ 53`. -/
structure Nearest (q : ℚ) (x : Magnitude) : Prop where
  placed : -1074 ≤ x.exponent
  nearest : ∀ (m : ℕ) (k : ℤ), m ≤ 2 ^ 53 → -1074 ≤ k → |x.value - q| ≤ |m * 2 ^ k - q|

theorem scaled_quotient (num den : ℕ) (place : ℤ) :
    ((num * twoTo (-place).toNat : ℕ) : ℚ) / (den * twoTo place.toNat : ℕ) =
      num / den / 2 ^ place := by
  rw [← twoTo_div_twoTo place]
  push_cast
  rw [div_div_div_eq]

theorem le_lastPlace (num den : ℕ) : -1074 ≤ lastPlace num den := le_max_right _ _

/-- Above the smallest exponent the quotient fills all bits. -/
theorem bits_of_lastPlace {num den : ℕ} (numPositive : num ≠ 0) (denPositive : 0 < den)
    (normal : -1074 < lastPlace num den) :
    (2 : ℚ) ^ 52 * 2 ^ lastPlace num den ≤ num / den := by
  simp only [lastPlace, lt_max_iff, lt_self_iff_false, or_false] at normal ⊢
  rw [max_eq_left normal.le]
  generalize guessed : (num.log2 : ℤ) - den.log2 - 52 = guess
  split
  · -- The guess is at most one too large.
    have low : (2 : ℚ) ^ num.log2 ≤ num := by exact_mod_cast Nat.log2_self_le numPositive
    have high : (den : ℚ) ≤ 2 ^ (den.log2 + 1) := by exact_mod_cast Nat.lt_log2_self.le
    calc (2 : ℚ) ^ 52 * 2 ^ (guess - 1)
        = 2 ^ num.log2 / 2 ^ (den.log2 + 1) := by
          rw [← zpow_natCast, ← zpow_natCast, ← zpow_natCast, ← zpow_sub₀ two_ne_zero,
            ← zpow_add₀ two_ne_zero]
          congr 1
          push_cast
          omega
      _ ≤ num / 2 ^ (den.log2 + 1) := by gcongr
      _ ≤ num / den := by gcongr
  · next enough =>
    have denScaled : 0 < den * twoTo guess.toNat := Nat.mul_pos denPositive (twoTo_pos _)
    have bound : (2 : ℚ) ^ 52 ≤ num / den / 2 ^ guess := by
      rw [← scaled_quotient, le_div_iff₀ (by exact_mod_cast denScaled)]
      exact_mod_cast not_lt.mp enough
    rwa [le_div_iff₀ (by positivity)] at bound

/-- A carry changes the form of the magnitude and not its value. -/
theorem value_of_nearest? {num den : ℕ} {x : Magnitude} (numPositive : num ≠ 0)
    (rounded : nearest? num den = some x) :
    -1074 ≤ x.exponent ∧ x.value = roundDiv (num * twoTo (-lastPlace num den).toNat)
      (den * twoTo (lastPlace num den).toNat) * 2 ^ lastPlace num den := by
  have place := le_lastPlace num den
  simp only [nearest?, numPositive, if_false] at rounded
  generalize lastPlace num den = p at rounded place ⊢
  generalize roundDiv (num * twoTo (-p).toNat) (den * twoTo p.toNat) = r at rounded ⊢
  by_cases carry : r = twoTo 53
  · rw [if_pos carry] at rounded
    split at rounded
    · contradiction
    · cases rounded
      refine ⟨by dsimp only; omega, ?_⟩
      rw [value, carry, twoTo_eq_pow, twoTo_eq_pow, zpow_add_one₀ two_ne_zero]
      ring
  · rw [if_neg carry] at rounded
    split at rounded
    · contradiction
    · cases rounded
      exact ⟨place, rfl⟩

theorem placed_of_nearest? {num den : ℕ} {x : Magnitude} (rounded : nearest? num den = some x) :
    -1074 ≤ x.exponent := by
  by_cases none : num = 0
  · simp only [nearest?, none, if_true, Option.some.injEq] at rounded
    subst rounded
    exact le_rfl
  · exact (value_of_nearest? none rounded).1

/-- What is nearest among the multiples of a last place is nearest, if the number fills all bits. -/
theorem nearest_of_multiples {q : ℚ} {p : ℤ} {x : Magnitude} (placed : -1074 ≤ x.exponent)
    (normal : -1074 < p → 2 ^ 52 * 2 ^ p ≤ q)
    (multiples : ∀ m : ℤ, |x.value - q| ≤ |m * 2 ^ p - q|) : Nearest q x := by
  refine ⟨placed, fun m k small above => ?_⟩
  obtain coarse | fine := le_or_gt p k
  · obtain ⟨n, rfl⟩ := Int.le.dest coarse
    have multiple := multiples (m * 2 ^ n)
    rw [zpow_add₀ two_ne_zero, zpow_natCast, mul_comm ((2 : ℚ) ^ p), ← mul_assoc]
    exact_mod_cast multiple
  · -- Finer magnitudes all lie below, and the smallest multiple with all bits is no further off.
    have least := normal (by omega)
    have below : (m : ℚ) * 2 ^ k ≤ 2 ^ 52 * 2 ^ p := by
      have power : (2 : ℚ) ^ k ≤ 2 ^ (p - 1) := zpow_le_zpow_right₀ one_le_two (by omega)
      have mantissa : (m : ℚ) ≤ 2 ^ 53 := by exact_mod_cast small
      calc (m : ℚ) * 2 ^ k ≤ 2 ^ 53 * 2 ^ (p - 1) := by gcongr
        _ = 2 ^ 52 * 2 ^ p := by
          rw [zpow_sub_one₀ two_ne_zero]
          ring
    have nearer := multiples (2 ^ 52)
    rw [Int.cast_pow, Int.cast_ofNat, abs_of_nonpos (a := 2 ^ 52 * 2 ^ p - q) (by linarith)] at nearer
    rw [abs_of_nonpos (by linarith : (m : ℚ) * 2 ^ k - q ≤ 0)]
    linarith

theorem nearest_of_nearest? {num den : ℕ} {x : Magnitude} (positive : 0 < den)
    (rounded : nearest? num den = some x) : Nearest (num / den) x := by
  by_cases none : num = 0
  · simp only [nearest?, none, if_true, Option.some.injEq] at rounded
    subst rounded
    refine ⟨le_rfl, fun m k _ _ => ?_⟩
    rw [none, value, zero, Nat.cast_zero, zero_mul, zero_div, sub_zero, abs_zero]
    exact abs_nonneg _
  · obtain ⟨placed, counted⟩ := value_of_nearest? none rounded
    refine nearest_of_multiples placed (bits_of_lastPlace none positive) fun m => ?_
    rw [counted]
    generalize lastPlace num den = p
    have unit : (0 : ℚ) < 2 ^ p := by positivity
    have scale : ∀ a : ℚ, |a * 2 ^ p - num / den| = |a - num / den / 2 ^ p| * 2 ^ p := by
      intro a
      rw [← abs_of_pos unit, ← abs_mul, abs_of_pos unit, sub_mul, div_mul_cancel₀ _ unit.ne']
    have half := abs_roundDiv_sub_le (num * twoTo (-p).toNat)
      (Nat.mul_pos positive (twoTo_pos _) : 0 < den * twoTo p.toNat)
    rw [scaled_quotient] at half
    rw [scale, scale]
    exact mul_le_mul_of_nonneg_right (abs_sub_le_of_half (by exact_mod_cast half) m) unit.le

theorem exists_nearest? {num den : ℕ} (positive : 0 < den) (small : (num : ℚ) / den ≤ 2 ^ 100) :
    ∃ x, nearest? num den = some x := by
  by_cases none : num = 0
  · exact ⟨zero, if_pos none⟩
  · have bits : num.log2 < 100 + (den.log2 + 1) := by
      rw [Nat.log2_lt none, pow_add]
      have bound : num ≤ 2 ^ 100 * den := by
        rw [div_le_iff₀ (by exact_mod_cast positive)] at small
        exact_mod_cast small
      exact bound.trans_lt (Nat.mul_lt_mul_of_pos_left Nat.lt_log2_self (by positivity))
    have place : lastPlace num den ≤ 100 := by
      unfold lastPlace
      dsimp only
      split <;> omega
    simp only [nearest?, none, if_false]
    generalize lastPlace num den = p at place ⊢
    -- A carry adds one to the place, which is far below the largest.
    split
    · exact ⟨_, if_neg (by dsimp only; omega)⟩
    · exact ⟨_, if_neg (by dsimp only; omega)⟩

/-! ## What follows from nearness -/

variable {q : ℚ} {x y : Magnitude}

/-- A number that has a magnitude is rounded to it. -/
theorem Nearest.exact (near : Nearest q x) {m : ℕ} {k : ℤ} (small : m ≤ 2 ^ 53)
    (above : -1074 ≤ k) (same : q = m * 2 ^ k) : x.value = q := by
  have error := near.nearest m k small above
  rw [← same, sub_self, abs_zero] at error
  exact sub_eq_zero.mp (abs_nonpos_iff.mp error)

/-- A magnitude below a number is not jumped over. -/
theorem Nearest.ge (near : Nearest q x) {m : ℕ} {k : ℤ} (small : m ≤ 2 ^ 53) (above : -1074 ≤ k)
    (below : m * 2 ^ k ≤ q) : m * 2 ^ k ≤ x.value := by
  have error := near.nearest m k small above
  rw [abs_of_nonpos (by linarith : (m : ℚ) * 2 ^ k - q ≤ 0)] at error
  have := neg_le_abs (x.value - q)
  linarith

/-- The error is at most half of the last place. -/
theorem Nearest.error (near : Nearest q x) (nonneg : 0 ≤ q) {e : ℤ} (above : -1074 ≤ e)
    (bound : q ≤ 2 ^ 53 * 2 ^ e) : |x.value - q| ≤ 2 ^ e / 2 := by
  have unit : (0 : ℚ) < 2 ^ e := by positivity
  have counted : q / 2 ^ e * 2 ^ e = q := div_mul_cancel₀ _ unit.ne'
  have low := Nat.floor_le (div_nonneg nonneg unit.le)
  have high := Nat.lt_floor_add_one (q / 2 ^ e)
  have few : q / 2 ^ e ≤ 2 ^ 53 := (div_le_iff₀ unit).mpr bound
  -- One of the two multiples around the number is within a half.
  generalize ⌊q / 2 ^ e⌋₊ = n at low high
  generalize q / 2 ^ e = t at counted low high few
  subst counted
  have within : ∀ m : ℕ, m ≤ 2 ^ 53 → |(m : ℚ) - t| ≤ 1 / 2 → |x.value - t * 2 ^ e| ≤ 2 ^ e / 2 := by
    intro m small close
    refine (near.nearest m e small above).trans ?_
    rw [← sub_mul, abs_mul, abs_of_pos unit]
    nlinarith
  have nSmall : n ≤ 2 ^ 53 := by exact_mod_cast low.trans few
  obtain lower | upper := le_total (t - n) (1 / 2)
  · refine within n nSmall ?_
    rw [abs_le]
    constructor <;> linarith
  · refine within (n + 1) ?_ ?_
    · have : (n : ℚ) < 2 ^ 53 := by linarith
      exact_mod_cast this
    · push_cast
      rw [abs_le]
      constructor <;> linarith

theorem Nearest.whole {n : ℕ} (near : Nearest n x) (small : n ≤ 2 ^ 53) : x.value = n :=
  near.exact (k := 0) small (by norm_num) (by rw [zpow_zero, mul_one])

theorem Nearest.ge_limit (near : Nearest q x) (large : 2 ^ 53 ≤ q) : 2 ^ 53 ≤ x.value := by
  have := near.ge (m := 2 ^ 53) (k := 0) le_rfl (by norm_num) (by norm_num; linarith)
  norm_num at this ⊢
  exact this

theorem Nearest.ge_next (near : Nearest q x) (large : 2 ^ 53 + 2 ≤ q) : 2 ^ 53 + 2 ≤ x.value := by
  have := near.ge (m := 2 ^ 52 + 1) (k := 1) (by norm_num) (by norm_num) (by norm_num; linarith)
  norm_num at this ⊢
  exact this

/-- Beyond `2 ^ 53 + 1` numbers are rounded away from `2 ^ 53`. -/
theorem Nearest.gt_limit (near : Nearest q x) (large : 2 ^ 53 + 1 < q) : 2 ^ 53 < x.value := by
  obtain above | below := le_total (2 ^ 53 + 2) q
  · have := near.ge_next above
    linarith
  · have error := near.nearest (2 ^ 52 + 1) 1 (by norm_num) (by norm_num)
    rw [show (((2 ^ 52 + 1 : ℕ) : ℚ) * 2 ^ (1 : ℤ)) = 2 ^ 53 + 2 by norm_num,
      abs_of_nonneg (by linarith : 0 ≤ 2 ^ 53 + 2 - q)] at error
    have := neg_le_abs (x.value - q)
    linarith

/-! ## Products and quotients -/

theorem value_eq (x : Magnitude) : x.value = x.numerator / x.denominator := by
  rw [value, numerator, denominator, Nat.cast_mul, mul_div_assoc, twoTo_div_twoTo]

theorem denominator_pos (x : Magnitude) : 0 < x.denominator := twoTo_pos _

theorem isZero_iff : x.isZero = true ↔ x.value = 0 := by
  have power : (2 : ℚ) ^ x.exponent ≠ 0 := by positivity
  simp [isZero, value, power]

theorem nearest_of_times? {z : Magnitude} (product : x.times? y = some z) :
    Nearest (x.value * y.value) z := by
  have near := nearest_of_nearest? (Nat.mul_pos x.denominator_pos y.denominator_pos) product
  rwa [Nat.cast_mul, Nat.cast_mul, mul_div_mul_comm, ← value_eq, ← value_eq] at near

theorem exists_times? (small : x.value * y.value ≤ 2 ^ 100) : ∃ z, x.times? y = some z := by
  apply exists_nearest? (Nat.mul_pos x.denominator_pos y.denominator_pos)
  rwa [Nat.cast_mul, Nat.cast_mul, mul_div_mul_comm, ← value_eq, ← value_eq]

theorem numerator_pos (nonzero : y.value ≠ 0) : 0 < y.numerator := by
  apply Nat.pos_of_ne_zero
  intro none
  rw [value_eq, none, Nat.cast_zero, zero_div] at nonzero
  exact nonzero rfl

theorem quotient_eq (x y : Magnitude) : ((x.numerator * y.denominator : ℕ) : ℚ) /
    (x.denominator * y.numerator : ℕ) = x.value / y.value := by
  rw [Nat.cast_mul, Nat.cast_mul, mul_div_mul_comm, ← value_eq, ← inv_div (y.numerator : ℚ),
    ← value_eq, ← div_eq_mul_inv]

theorem nearest_of_over? {z : Magnitude} (divisor : y.value ≠ 0) (quotient : x.over? y = some z) :
    Nearest (x.value / y.value) z := by
  have near := nearest_of_nearest? (Nat.mul_pos x.denominator_pos (numerator_pos divisor)) quotient
  rwa [quotient_eq] at near

theorem exists_over? (divisor : y.value ≠ 0) (small : x.value / y.value ≤ 2 ^ 100) :
    ∃ z, x.over? y = some z := by
  apply exists_nearest? (Nat.mul_pos x.denominator_pos (numerator_pos divisor))
  rwa [quotient_eq]

/-! ## Whole numbers -/

theorem units_eq (placed : -1074 ≤ x.exponent) : (x.units : ℚ) = x.value * 2 ^ 1074 := by
  have shift : (2 : ℚ) ^ (x.exponent + 1074).toNat = 2 ^ x.exponent * 2 ^ 1074 := by
    rw [← zpow_natCast, Int.toNat_of_nonneg (by omega), zpow_add₀ two_ne_zero]
    rfl
  rw [units, Nat.cast_mul, twoTo_eq_pow, shift, value, mul_assoc]

end Magnitude

/-- A number that is taken for an integer has its value, and no more than the limit. -/
theorem Binary64.exists_of_toInt? {negative : Bool} {x : Magnitude} {limit : ℕ} {z : ℤ}
    (placed : -1074 ≤ x.exponent) (fits : (finite negative x).between (-limit) limit = true)
    (whole : (finite negative x).toInt? = some z) :
    ∃ n : ℕ, x.value = n ∧ n ≤ limit ∧ z = if negative then -(n : ℤ) else n := by
  have counted := Magnitude.units_eq placed
  rw [← twoTo_eq_pow] at counted
  have positive := twoTo_pos 1074
  simp only [toInt?, between, units?, Bool.and_eq_true, decide_eq_true_eq] at whole fits
  -- The unit is far too small for its power to be computed.
  generalize twoTo 1074 = unit at counted positive whole fits
  generalize signed : (if negative = true then -(x.units : ℤ) else x.units) = u at whole fits
  split at whole
  · next exact =>
    cases whole
    have size : u.natAbs = x.units := by
      rw [← signed]
      split <;> simp
    obtain ⟨n, multiple⟩ : unit ∣ x.units := by
      rw [← size]
      exact Int.natCast_dvd.mp (Int.dvd_of_emod_eq_zero exact)
    have units : u = unit * if negative then -(n : ℤ) else n := by
      rw [← signed, multiple]
      split <;> push_cast <;> ring
    refine ⟨n, ?_, ?_, ?_⟩
    · rw [multiple, Nat.cast_mul, mul_comm] at counted
      exact (mul_right_cancel₀ (by positivity) counted).symm
    · have bound : unit * n ≤ unit * limit := by
        rw [← multiple, ← size, mul_comm]
        zify
        exact abs_le.mpr ⟨by linarith, fits.2⟩
      exact Nat.le_of_mul_le_mul_left bound positive
    · rw [units, Int.mul_ediv_cancel_left _ (by positivity)]
  · contradiction

theorem Binary64.toInt?_of_value (negative : Bool) {x : Magnitude} {limit n : ℕ}
    (placed : -1074 ≤ x.exponent) (value : x.value = n) (small : n ≤ limit) :
    (finite negative x).between (-limit) limit = true ∧
      (finite negative x).toInt? = some (if negative then -(n : ℤ) else n) := by
  have counted := Magnitude.units_eq placed
  rw [value, ← twoTo_eq_pow] at counted
  have positive := twoTo_pos 1074
  simp only [toInt?, between, units?, Bool.and_eq_true, decide_eq_true_eq]
  generalize twoTo 1074 = unit at counted positive ⊢
  have units : x.units = n * unit := by exact_mod_cast counted
  have signed : (if negative = true then -(x.units : ℤ) else x.units) =
      (if negative = true then -(n : ℤ) else n) * unit := by
    rw [units]
    split <;> push_cast <;> ring
  have within : -(limit : ℤ) ≤ (if negative = true then -(n : ℤ) else n) ∧
      (if negative = true then -(n : ℤ) else n) ≤ limit := by
    split <;> omega
  rw [signed, if_pos (Int.mul_emod_left _ _), Int.mul_ediv_cancel _ (by positivity)]
  exact ⟨⟨by gcongr; exact within.1, by gcongr; exact within.2⟩, rfl⟩

end Tollgate
