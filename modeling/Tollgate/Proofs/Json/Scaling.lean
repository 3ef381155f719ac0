import Tollgate.Json.Reader
import Tollgate.Proofs.Binary64

/-! # Integers as scaled significands

A number with a point or a power of ten is read as a significand times a power of ten, in three
roundings: of the significand, of the power and of the product or quotient.  Here the exact product
is an integer, and the question is whether the result can be taken for another one.

* Powers of ten have few bits and are exact as long as they matter (`powerOfTen?_exact`).
* Up to 64 bits a significand is off by less than the power that it is divided by
  (`abs_quotient_sub_lt_one`), so that the result is off by one at most.
* Small integers have room for the error (`abs_quotient_sub_lt_half`), and above `2 ^ 53 + 1` results
  are too large to be taken for an integer at all (`gt_limit_of_quotient`).  In between integers may
  be misread, and `Misread` says as what.
* Significands of 53 bits and small powers are exact from the start (`exists_scale`).
-/

namespace Tollgate.Json

open Magnitude (Nearest)

/-! ## Factors -/

section Factors

variable {n power : ℕ} {x p : Magnitude}

theorem nearest_of_whole (rounded : Magnitude.nearest? n 1 = some x) : Nearest n x := by
  have near := Magnitude.nearest_of_nearest? Nat.one_pos rounded
  rwa [Nat.cast_one, div_one] at near

theorem nearest_of_powerOfTen? (rounded : powerOfTen? power = some p) :
    Nearest (10 ^ power : ℚ) p := by
  have near := nearest_of_whole rounded
  rwa [show ((tenTo power : ℕ) : ℚ) = 10 ^ power by simp [tenTo]] at near

theorem ten_pow_eq (j : ℕ) : (10 : ℚ) ^ j = (5 ^ j : ℕ) * 2 ^ (j : ℤ) := by
  rw [zpow_natCast, Nat.cast_pow, ← mul_pow]
  norm_num

/-- The odd part of a power of ten has 53 bits for a long time. -/
theorem five_pow_le {j : ℕ} (small : j ≤ 22) : 5 ^ j ≤ 2 ^ 53 :=
  (Nat.pow_le_pow_right (by decide) small).trans (by decide)

theorem powerOfTen?_exact (rounded : powerOfTen? power = some p) (small : power ≤ 22) :
    p.value = 10 ^ power :=
  (nearest_of_powerOfTen? rounded).exact (five_pow_le small) (by omega) (ten_pow_eq power)

theorem powerOfTen?_ge (rounded : powerOfTen? power = some p) {j : ℕ} (small : j ≤ 22)
    (below : j ≤ power) : 10 ^ j ≤ p.value := by
  rw [ten_pow_eq]
  apply (nearest_of_powerOfTen? rounded).ge (five_pow_le small) (by omega)
  rw [← ten_pow_eq]
  exact pow_le_pow_right₀ (by norm_num) below

end Factors

/-! ## Places -/

section Places

variable {s y x : Magnitude}

theorem shrink_of_zero (times : ℕ) (zero : s.isZero = true) : shrink times s = some s := by
  cases times with
  | zero => rfl
  | succ times => exact if_pos zero

theorem shrink_of_nonzero (times : ℕ) (nonzero : ¬s.isZero = true) :
    shrink (times + 1) s = ((powerOfTen? largestPower).bind s.over?).bind (shrink times) := by
  refine (if_neg nonzero).trans ?_
  cases (powerOfTen? largestPower).bind s.over? <;> rfl

theorem placed_of_over? {p : Option Magnitude} (quotient : p.bind s.over? = some y) :
    -1074 ≤ y.exponent := by
  obtain ⟨p, -, divided⟩ := Option.bind_eq_some_iff.mp quotient
  exact Magnitude.placed_of_nearest? divided

theorem placed_of_shrink {times : ℕ} (placed : -1074 ≤ s.exponent)
    (shrunk : shrink times s = some y) : -1074 ≤ y.exponent := by
  induction times generalizing s with
  | zero =>
    cases shrunk
    exact placed
  | succ times ih =>
    by_cases zero : s.isZero = true
    · rw [shrink_of_zero _ zero] at shrunk
      cases shrunk
      exact placed
    · rw [shrink_of_nonzero times zero] at shrunk
      obtain ⟨quotient, divided, rest⟩ := Option.bind_eq_some_iff.mp shrunk
      exact ih (placed_of_over? divided) rest

theorem placed_of_scale {S : ℕ} {P : ℤ} (scaled : scale S P = some x) : -1074 ≤ x.exponent := by
  unfold scale at scaled
  split at scaled
  · contradiction
  · next s rounded =>
    have placed := Magnitude.placed_of_nearest? rounded
    split at scaled
    · -- The largest power may have to be divided by more than once.
      unfold scaleDown at scaled
      dsimp only at scaled
      split at scaled
      · contradiction
      · next y shrunk =>
        split at scaled
        · cases scaled
          exact placed_of_shrink placed shrunk
        · exact placed_of_over? scaled
    · split at scaled
      · obtain ⟨p, -, product⟩ := Option.bind_eq_some_iff.mp scaled
        exact Magnitude.placed_of_nearest? product
      · split at scaled
        · cases scaled
          exact placed
        · contradiction

end Places

/-! ## Scaling up -/

/-- What scaling up gives: a rounded product, or zero if the power has no magnitude. -/
theorem product_of_scale {S : ℕ} {P : ℤ} {x : Magnitude} (up : 0 ≤ P) (scaled : scale S P = some x) :
    ∃ s, Nearest S s ∧ ((∃ p, powerOfTen? P.toNat = some p ∧ Nearest (s.value * p.value) x) ∨
      s.value = 0 ∧ x = s) := by
  unfold scale at scaled
  split at scaled
  · contradiction
  · next s rounded =>
    refine ⟨s, nearest_of_whole rounded, ?_⟩
    rw [if_neg (not_lt.mpr up)] at scaled
    split at scaled
    · obtain ⟨p, power, product⟩ := Option.bind_eq_some_iff.mp scaled
      exact .inl ⟨p, power, Magnitude.nearest_of_times? product⟩
    · split at scaled
      · next zero =>
        cases scaled
        exact .inr ⟨Magnitude.isZero_iff.mp zero, rfl⟩
      · contradiction

section Up

variable {S V : ℕ} {P : ℤ} {x : Magnitude}

/-- A significand of 60 bits or more that is scaled up is too large. -/
theorem gt_limit_of_large (up : 0 ≤ P) (scaled : scale S P = some x) (large : 10 ^ 18 ≤ S) :
    2 ^ 53 < x.value := by
  obtain ⟨s, near, product⟩ := product_of_scale up scaled
  have significand : 2 ^ 53 + 2 ≤ s.value := by
    apply near.ge_next
    exact_mod_cast (by norm_num : 2 ^ 53 + 2 ≤ 10 ^ 18).trans large
  obtain ⟨p, power, nearest⟩ | ⟨zero, -⟩ := product
  · have one := powerOfTen?_ge power (j := 0) (by decide) (Nat.zero_le _)
    apply nearest.gt_limit
    rw [pow_zero] at one
    nlinarith
  · rw [zero] at significand
    norm_num at significand

variable {n : ℕ}

theorem value_of_scaled_up (scaled : scale S n = some x) (small : S * 10 ^ n ≤ 2 ^ 53) :
    x.value = (S * 10 ^ n : ℕ) := by
  obtain ⟨s, near, product⟩ := product_of_scale (Int.natCast_nonneg n) scaled
  have sSmall : S ≤ 2 ^ 53 := (Nat.le_mul_of_pos_right S (by positivity)).trans small
  have significand := near.whole sSmall
  obtain ⟨p, power, nearest⟩ | ⟨zero, rfl⟩ := product
  · obtain rfl | positive := Nat.eq_zero_or_pos S
    · rw [significand, Nat.cast_zero, zero_mul] at nearest
      rw [zero_mul]
      exact nearest.whole (by norm_num)
    · -- A significand that is not zero leaves room for 22 places.
      have few : n ≤ 22 := by
        by_contra many
        have : 10 ^ 22 ≤ 10 ^ n := Nat.pow_le_pow_right (by decide) (by omega)
        nlinarith
      rw [Int.toNat_natCast] at power
      rw [significand, powerOfTen?_exact power few] at nearest
      exact Magnitude.Nearest.whole (by exact_mod_cast nearest) small
  · have none : S = 0 := by
      rw [zero] at significand
      exact_mod_cast significand.symm
    rw [zero, none, zero_mul, Nat.cast_zero]

/-- A product of a significand and a power of ten that lies beyond `2 ^ 53` does so when both are
    rounded. -/
theorem product_ge {s p : Magnitude} (near : Nearest S s) (power : powerOfTen? n = some p)
    {limit : ℚ} (low : 2 ^ 53 ≤ limit) (high : limit ≤ 2 ^ 53 + 2) (large : limit ≤ S * 10 ^ n)
    (carried : limit ≤ S → limit ≤ s.value) : limit ≤ s.value * p.value := by
  have one := powerOfTen?_ge power (j := 0) (by decide) (Nat.zero_le _)
  rw [pow_zero] at one
  -- Up to `2 ^ 53` the significand is exact, and beyond it any power of ten is more than enough.
  obtain beyond | within := le_total (2 ^ 53 : ℚ) S
  · obtain rfl | positive := Nat.eq_zero_or_pos n
    · rw [pow_zero, mul_one] at large
      nlinarith [carried large]
    · have ten := powerOfTen?_ge power (j := 1) (by decide) positive
      have := near.ge_limit beyond
      nlinarith
  · have significand := near.whole (by exact_mod_cast within)
    obtain few | many := le_or_gt n 22
    · rwa [significand, powerOfTen?_exact power few]
    · have huge := powerOfTen?_ge power (j := 22) le_rfl many.le
      have some : (1 : ℚ) ≤ S := by
        have : S ≠ 0 := by
          rintro rfl
          rw [Nat.cast_zero, zero_mul] at large
          linarith
        exact_mod_cast Nat.one_le_iff_ne_zero.mpr this
      rw [significand]
      nlinarith

theorem ge_of_scaled_up (scaled : scale S n = some x) (large : 2 ^ 53 < S * 10 ^ n) :
    2 ^ 53 ≤ x.value ∧ (2 ^ 53 + 1 < S * 10 ^ n → 2 ^ 53 < x.value) := by
  obtain ⟨s, near, product⟩ := product_of_scale (Int.natCast_nonneg n) scaled
  have some : 1 ≤ s.value := by
    have : S ≠ 0 := by
      rintro rfl
      simp at large
    have least := near.ge (m := 1) (k := 0) (by norm_num) (by norm_num)
    rw [Nat.cast_one, one_mul, zpow_zero] at least
    exact least (by exact_mod_cast Nat.one_le_iff_ne_zero.mpr this)
  obtain ⟨p, power, nearest⟩ | ⟨zero, -⟩ := product
  · rw [Int.toNat_natCast] at power
    refine ⟨nearest.ge_limit ?_, fun next => ?_⟩
    · apply product_ge near power le_rfl (by norm_num) _ near.ge_limit
      exact_mod_cast large.le
    · have beyond : 2 ^ 53 + 2 ≤ s.value * p.value :=
        product_ge near power (by norm_num) le_rfl (by exact_mod_cast next) near.ge_next
      exact nearest.gt_limit (by linarith)
  · rw [zero] at some
    norm_num at some

end Up

/-! ## Scaling down -/

section Down

variable {S V k : ℕ} {s x : Magnitude}

theorem value_of_scale_zero {P : ℤ} (scaled : scale 0 P = some x) : x.value = 0 := by
  have zero : Magnitude.zero.value = 0 := by simp [Magnitude.value, Magnitude.zero]
  obtain up | down := le_or_gt 0 P
  · lift P to ℕ using up
    have exact := value_of_scaled_up scaled (by norm_num)
    rwa [zero_mul, Nat.cast_zero] at exact
  · have rounded : Magnitude.nearest? 0 1 = some .zero := rfl
    have isZero : Magnitude.zero.isZero = true := rfl
    simp only [scale, rounded, down, if_true, scaleDown, shrink_of_zero _ isZero, isZero,
      Option.some.injEq] at scaled
    rw [← scaled, zero]

theorem scaleDown_eq (one : 1 ≤ k) (finite : k ≤ largestPower) :
    scaleDown s k = if s.isZero then some s else (powerOfTen? k).bind s.over? := by
  have times : (k - 1) / largestPower = 0 := Nat.div_eq_of_lt (by omega)
  unfold scaleDown
  rw [times]
  dsimp only
  rw [Nat.zero_mul, Nat.sub_zero]
  rfl

theorem quotient_of_scale (nonzero : S ≠ 0) (one : 1 ≤ k) (few : k ≤ 22)
    (scaled : scale S (-k) = some x) : ∃ s, Nearest S s ∧ Nearest (s.value / 10 ^ k) x := by
  have down : -(k : ℤ) < 0 := by omega
  have finite : k ≤ largestPower := few.trans (by decide)
  unfold scale at scaled
  split at scaled
  · contradiction
  · next s rounded =>
    have near := nearest_of_whole rounded
    -- One is nearer to a positive whole number than zero is.
    have positive : s.isZero = false := by
      apply Bool.eq_false_iff.mpr
      intro zero
      have least := near.ge (m := 1) (k := 0) (by norm_num) (by norm_num)
      rw [Nat.cast_one, one_mul, zpow_zero, Magnitude.isZero_iff.mp zero] at least
      have := least (by exact_mod_cast Nat.one_le_iff_ne_zero.mpr nonzero)
      norm_num at this
    rw [if_pos down, Int.natAbs_neg, Int.natAbs_natCast, scaleDown_eq one finite, positive,
      if_neg Bool.false_ne_true] at scaled
    obtain ⟨p, power, quotient⟩ := Option.bind_eq_some_iff.mp scaled
    have exact := powerOfTen?_exact power few
    have divided := Magnitude.nearest_of_over? (by rw [exact]; positivity) quotient
    rw [exact] at divided
    exact ⟨s, near, divided⟩

/-- How far a quotient is off by the rounding of its dividend: `2 ^ e` is the last place of that. -/
theorem abs_quotient_sub_lt {e : ℕ} {c : ℚ} (near : Nearest (V * 10 ^ k : ℕ) s)
    (bits : V * 10 ^ k ≤ 2 ^ 53 * 2 ^ e) (room : 2 ^ e < c * 2 * 10 ^ k) :
    |s.value / 10 ^ k - V| < c := by
  have unit : (0 : ℚ) < 10 ^ k := by positivity
  have error := near.error (e := e) (by positivity) (by omega) (by
    rw [zpow_natCast]
    exact_mod_cast bits)
  rw [zpow_natCast] at error
  have split : s.value / 10 ^ k - V = (s.value - (V * 10 ^ k : ℕ)) / 10 ^ k := by
    push_cast
    field_simp
  rw [split, abs_div, abs_of_pos unit, div_lt_iff₀ unit]
  linarith

theorem abs_quotient_sub_lt_one (near : Nearest (V * 10 ^ k : ℕ) s) (one : 1 ≤ k)
    (small : V ≤ 2 ^ 53 + 1) (fits : V * 10 ^ k < 2 ^ 64) : |s.value / 10 ^ k - V| < 1 := by
  -- From four places on the last place of 64 bits is below the power that is divided by.
  obtain rfl | rfl | rfl | many : k = 1 ∨ k = 2 ∨ k = 3 ∨ 4 ≤ k := by omega
  · exact abs_quotient_sub_lt (e := 4) near (by omega) (by norm_num)
  · exact abs_quotient_sub_lt (e := 7) near (by omega) (by norm_num)
  · exact abs_quotient_sub_lt (e := 10) near (by omega) (by norm_num)
  · have power : (10 : ℚ) ^ 4 ≤ 10 ^ k := pow_le_pow_right₀ (by norm_num) many
    refine abs_quotient_sub_lt (e := 11) near (by omega) ?_
    norm_num at power ⊢
    linarith

/-- Small integers have room for the error: only three places with few bits and many matter. -/
theorem abs_quotient_sub_lt_half (near : Nearest (V * 10 ^ k : ℕ) s) (one : 1 ≤ k)
    (small : V < 4611686018427413) (few : k = 3 → V < 4611686018427388)
    (fits : V * 10 ^ k < 2 ^ 64) : |s.value / 10 ^ k - V| < 1 / 2 := by
  obtain rfl | rfl | rfl | many : k = 1 ∨ k = 2 ∨ k = 3 ∨ 4 ≤ k := by omega
  · exact abs_quotient_sub_lt (e := 3) near (by omega) (by norm_num)
  · exact abs_quotient_sub_lt (e := 6) near (by omega) (by norm_num)
  · have := few rfl
    exact abs_quotient_sub_lt (e := 9) near (by omega) (by norm_num)
  · have power : (10 : ℚ) ^ 4 ≤ 10 ^ k := pow_le_pow_right₀ (by norm_num) many
    refine abs_quotient_sub_lt (e := 11) near (by omega) ?_
    norm_num at power ⊢
    linarith

/-- With three places the first significands of 63 bits come out right by chance. -/
theorem scale_three_places : ∀ i : Fin 25,
    scale ((4611686018427388 + i) * 10 ^ 3) (-3) = some ⟨4611686018427388 + i, 0⟩ := by
  decide +kernel

/-- The first magnitude above so many times `2 ^ 53` is more than so many times `2 ^ 53 + 1`. -/
theorem gt_limit_of_quotient (near : Nearest (V * 10 ^ k : ℕ) s) (one : 1 ≤ k)
    (large : 2 ^ 53 + 1 < V) (fits : V * 10 ^ k < 2 ^ 64) : 2 ^ 53 + 1 < s.value / 10 ^ k := by
  -- After `10 ^ k * 2 ^ 53` the next magnitude is `2 ^ e` above, and none lies between.
  have reach : ∀ e : ℕ, 10 ^ k < 2 ^ e → 10 ^ k * 2 ^ 53 + 2 ^ e ≤ V * 10 ^ k →
      (∃ m, m ≤ 2 ^ 53 ∧ m * 2 ^ e = 10 ^ k * 2 ^ 53 + 2 ^ e) → 2 ^ 53 + 1 < s.value / 10 ^ k := by
    rintro e room bits ⟨m, mantissa, same⟩
    have least := near.ge (k := e) mantissa (by omega) (by
      rw [zpow_natCast]
      exact_mod_cast same.trans_le bits)
    have gap : (10 ^ k * 2 ^ 53 + 2 ^ e : ℚ) = m * 2 ^ e := by exact_mod_cast same.symm
    have apart : (10 : ℚ) ^ k < 2 ^ e := by exact_mod_cast room
    rw [zpow_natCast] at least
    rw [lt_div_iff₀ (by positivity)]
    linarith
  obtain rfl | rfl | rfl | many : k = 1 ∨ k = 2 ∨ k = 3 ∨ 4 ≤ k := by omega
  · exact reach 4 (by norm_num) (by omega) ⟨10 * 2 ^ 49 + 1, by norm_num, by norm_num⟩
  · exact reach 7 (by norm_num) (by omega) ⟨100 * 2 ^ 46 + 1, by norm_num, by norm_num⟩
  · exact reach 10 (by norm_num) (by omega) ⟨1000 * 2 ^ 43 + 1, by norm_num, by norm_num⟩
  · have power : 10 ^ 4 ≤ 10 ^ k := Nat.pow_le_pow_right (by decide) many
    have := Nat.mul_le_mul large.le power
    omega

end Down

/-! ## Results that are integers -/

/-- One number is another, or both are so large that one of them may be misread as the other. -/
def Misread (V y : ℕ) : Prop :=
  4611686018427413 ≤ V ∧ V ≤ 2 ^ 53 + 1 ∧ (y + 1 = V ∨ y = V + 1)

section Whole

variable {S V k y : ℕ} {P : ℤ} {s x : Magnitude}

theorem eq_of_abs_lt {a b : ℕ} (close : |(a : ℚ) - b| < 1) : a = b := by
  have near : |(a : ℤ) - b| < 1 := by exact_mod_cast close
  have := Int.abs_lt_one_iff.mp near
  omega

/-- Rounding at most doubles the distance to an integer of 53 bits. -/
theorem abs_sub_lt_of_nearest {q c : ℚ} (nearest : Nearest q x) (whole : x.value = y)
    (close : |q - V| < c) (limit : V ≤ 2 ^ 53) : |(y : ℚ) - V| < 2 * c := by
  have error := nearest.nearest V 0 limit (by norm_num)
  rw [zpow_zero, mul_one, whole, abs_sub_comm (V : ℚ)] at error
  have triangle := abs_sub_le (y : ℚ) q V
  linarith

theorem eq_or_next_of_quotient {q : ℚ} (nearest : Nearest q x) (whole : x.value = y)
    (small : y ≤ 2 ^ 53) (close : |q - V| < 1) (limit : V ≤ 2 ^ 53 + 1) :
    y = V ∨ y + 1 = V ∨ y = V + 1 := by
  obtain within | beyond : V ≤ 2 ^ 53 ∨ V = 2 ^ 53 + 1 := by omega
  · have apart := abs_sub_lt_of_nearest nearest whole close within
    have : |(y : ℤ) - V| < 2 := by exact_mod_cast (by linarith : |(y : ℚ) - V| < 2)
    rw [abs_lt] at this
    omega
  · have above : 2 ^ 53 ≤ q := by
      rw [beyond] at close
      have := neg_lt_of_abs_lt close
      push_cast at this
      linarith
    have least := nearest.ge_limit above
    rw [whole] at least
    have : 2 ^ 53 ≤ y := by exact_mod_cast least
    omega

theorem eq_or_misread_of_up {n : ℕ} (scaled : scale S n = some x) (whole : x.value = y)
    (small : y ≤ 2 ^ 53) : y = S * 10 ^ n ∨ Misread (S * 10 ^ n) y := by
  obtain within | beyond := le_or_gt (S * 10 ^ n) (2 ^ 53)
  · have exact := value_of_scaled_up scaled within
    rw [whole] at exact
    exact .inl (by exact_mod_cast exact)
  · obtain ⟨least, next⟩ := ge_of_scaled_up scaled beyond
    rw [whole] at least next
    have floor : 2 ^ 53 ≤ y := by exact_mod_cast least
    have limit : S * 10 ^ n ≤ 2 ^ 53 + 1 := by
      by_contra above
      have : 2 ^ 53 < y := by exact_mod_cast next (by omega)
      omega
    exact .inr ⟨by omega, limit, by omega⟩

theorem eq_or_misread_of_down (one : 1 ≤ k) (fits : V * 10 ^ k < 2 ^ 64)
    (scaled : scale (V * 10 ^ k) (-k) = some x) (whole : x.value = y) (small : y ≤ 2 ^ 53) :
    y = V ∨ Misread V y := by
  obtain rfl | positive := Nat.eq_zero_or_pos V
  · rw [zero_mul] at scaled
    have zero := value_of_scale_zero scaled
    rw [whole] at zero
    exact .inl (by exact_mod_cast zero)
  · have few : k ≤ 22 := by
      by_contra many
      have power : 10 ^ 22 ≤ 10 ^ k := Nat.pow_le_pow_right (by decide) (by omega)
      have := Nat.le_mul_of_pos_left (10 ^ k) positive
      omega
    obtain ⟨s, near, nearest⟩ := quotient_of_scale (by positivity) one few scaled
    have limit : V ≤ 2 ^ 53 + 1 := by
      by_contra above
      have beyond := nearest.gt_limit (gt_limit_of_quotient near one (by omega) fits)
      rw [whole] at beyond
      have : 2 ^ 53 < y := by exact_mod_cast beyond
      omega
    obtain low | high := lt_or_ge V 4611686018427413
    · left
      -- The bound on the error leaves out a few significands, which are computed.
      by_cases three : k = 3 ∧ 4611686018427388 ≤ V
      · obtain ⟨rfl, first⟩ := three
        have computed := scale_three_places ⟨V - 4611686018427388, by omega⟩
        rw [Nat.add_sub_cancel' first] at computed
        obtain rfl := Option.some.inj (scaled.symm.trans computed)
        simpa [Magnitude.value] using whole.symm
      · have close := abs_quotient_sub_lt_half near one low (fun same => by omega) fits
        have apart := abs_sub_lt_of_nearest nearest whole close (by omega)
        exact eq_of_abs_lt (by linarith)
    · have close := abs_quotient_sub_lt_one near one limit fits
      obtain same | next := eq_or_next_of_quotient nearest whole small close limit
      · exact .inl same
      · exact .inr ⟨high, limit, next⟩

/-- A result that is an integer is the exact product, or next to it. -/
theorem eq_or_misread (fits : S < 2 ^ 64) (exact : (S : ℚ) * 10 ^ P = V)
    (scaled : scale S P = some x) (whole : x.value = y) (small : y ≤ 2 ^ 53) :
    y = V ∨ Misread V y := by
  obtain up | down := le_or_gt 0 P
  · lift P to ℕ using up
    have product : S * 10 ^ P = V := by exact_mod_cast exact
    rw [← product]
    exact eq_or_misread_of_up scaled whole small
  · obtain ⟨k, rfl⟩ : ∃ k : ℕ, P = -k := ⟨P.natAbs, by omega⟩
    have product : S = V * 10 ^ k := by
      rw [zpow_neg, zpow_natCast, ← div_eq_mul_inv, div_eq_iff (by positivity)] at exact
      exact_mod_cast exact
    subst product
    exact eq_or_misread_of_down (by omega) fits scaled whole small

end Whole

/-! ## Few digits -/

section Few

variable {S V : ℕ} {P : ℤ} {s p : Magnitude}

theorem exists_powerOfTen? {k : ℕ} (few : k ≤ 22) : ∃ p, powerOfTen? k = some p := by
  apply Magnitude.exists_nearest? Nat.one_pos
  rw [Nat.cast_one, div_one, show ((tenTo k : ℕ) : ℚ) = 10 ^ k by simp [tenTo]]
  calc (10 : ℚ) ^ k ≤ 10 ^ 22 := pow_le_pow_right₀ (by norm_num) few
    _ ≤ 2 ^ 100 := by norm_num

theorem exists_times_whole (product : s.value * p.value = V) (small : V ≤ 2 ^ 53) :
    ∃ x, s.times? p = some x ∧ x.value = V := by
  have bound : (V : ℚ) ≤ 2 ^ 53 := by exact_mod_cast small
  obtain ⟨x, times⟩ := Magnitude.exists_times? (x := s) (y := p) (by rw [product]; linarith)
  have near := Magnitude.nearest_of_times? times
  rw [product] at near
  exact ⟨x, times, near.whole small⟩

theorem exists_over_whole (divisor : p.value ≠ 0) (quotient : s.value / p.value = V)
    (small : V ≤ 2 ^ 53) : ∃ x, s.over? p = some x ∧ x.value = V := by
  have bound : (V : ℚ) ≤ 2 ^ 53 := by exact_mod_cast small
  obtain ⟨x, divided⟩ := Magnitude.exists_over? divisor (by rw [quotient]; linarith)
  have near := Magnitude.nearest_of_over? divisor divided
  rw [quotient] at near
  exact ⟨x, divided, near.whole small⟩

/-- If the significand and the power are exact, then so is the result. -/
theorem exists_scale (digits : S ≤ 2 ^ 53) (few : P.natAbs ≤ 22) (exact : (S : ℚ) * 10 ^ P = V)
    (small : V ≤ 2 ^ 53) : ∃ x, scale S P = some x ∧ x.value = V := by
  have bound : (S : ℚ) ≤ 2 ^ 53 := by exact_mod_cast digits
  have moderate : (S : ℚ) / (1 : ℕ) ≤ 2 ^ 100 := by
    rw [Nat.cast_one, div_one]
    linarith
  obtain ⟨s, rounded⟩ := Magnitude.exists_nearest? Nat.one_pos moderate
  have significand : s.value = S := (nearest_of_whole rounded).whole digits
  obtain ⟨p, power⟩ := exists_powerOfTen? few
  have ten := powerOfTen?_exact power few
  simp only [scale, rounded]
  -- Both factors are exact, so the one rounding that is left has a whole number to hit.
  obtain up | down := le_or_gt 0 P
  · lift P to ℕ using up
    rw [zpow_natCast] at exact
    rw [Int.natAbs_natCast] at few power ten
    have finite : (P : ℤ) ≤ largestPower := by
      change (P : ℤ) ≤ 308
      omega
    rw [if_neg (by omega), if_pos finite, Int.toNat_natCast, power]
    exact exists_times_whole (by rw [significand, ten, exact]) small
  · rw [if_pos down, scaleDown_eq (by omega) (few.trans (by decide)), power]
    split
    · next zero =>
      refine ⟨s, rfl, ?_⟩
      rw [significand, ← exact, ← significand, Magnitude.isZero_iff.mp zero, zero_mul]
    · refine exists_over_whole (by rw [ten]; positivity) ?_ small
      rw [significand, ten, ← exact, div_eq_mul_inv, ← zpow_natCast, ← zpow_neg]
      congr 2
      omega

end Few

end Tollgate.Json
