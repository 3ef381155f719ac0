import Mathlib.Data.Nat.Digits.Defs
import Tollgate.Proofs.Json.Scaling

/-! # Digits that do not fit

Of the digits of a number only those are taken into the significand that fit 64 bits.  If the number
is an integer, then either nothing but zeros is left out, or so much that the number is far too large
(`kept_of_fits`).  So all that can go wrong is the rounding of what was taken (`value?_cases`).
-/

namespace Tollgate.Json

/-! ## Decimal digits -/

theorem foldl_digits (s : ℕ) (ds : List ℕ) :
    ds.foldl (fun n d => n * 10 + d) s = s * 10 ^ ds.length + digitsNat ds := by
  induction ds generalizing s with
  | nil => simp [digitsNat]
  | cons d ds ih =>
    rw [digitsNat, List.foldl_cons, List.foldl_cons, ih, ih (0 * 10 + d), List.length_cons]
    ring

theorem digitsNat_append (as bs : List ℕ) :
    digitsNat (as ++ bs) = digitsNat as * 10 ^ bs.length + digitsNat bs := by
  rw [digitsNat, List.foldl_append, foldl_digits]
  rfl

theorem digitsNat_cons (d : ℕ) (ds : List ℕ) :
    digitsNat (d :: ds) = d * 10 ^ ds.length + digitsNat ds := by
  rw [digitsNat, List.foldl_cons, foldl_digits, zero_mul, zero_add]

theorem digitsNat_lt {ds : List ℕ} (digits : ∀ d ∈ ds, d < 10) :
    digitsNat ds < 10 ^ ds.length := by
  induction ds with
  | nil => simp [digitsNat]
  | cons d ds ih =>
    obtain ⟨first, later⟩ := List.forall_mem_cons.mp digits
    have rest := ih later
    rw [digitsNat_cons, List.length_cons, pow_succ]
    nlinarith

/-! ## What fits -/

/-- What is taken into a significand and what is left out. -/
structure Fits (s : ℕ) (ds : List ℕ) (S : ℕ) (taken rest : List ℕ) : Prop where
  split : ds = taken ++ rest
  value : S = s * 10 ^ taken.length + digitsNat taken
  bound : S < 2 ^ 64
  first : ∀ d ds', taken = d :: ds' → s * 10 + d < 2 ^ 64
  next : ∀ d ds', rest = d :: ds' → 2 ^ 64 ≤ S * 10 + d

theorem exists_fits {s : ℕ} (small : s < 2 ^ 64) (ds : List ℕ) :
    ∃ taken, Fits s ds (fitDigits s ds).1 taken (fitDigits s ds).2 := by
  induction ds generalizing s with
  | nil => exact ⟨[], rfl, by simp [fitDigits, digitsNat], small, nofun, nofun⟩
  | cons d ds ih =>
    by_cases fits : s * 10 + d < twoTo 64
    · obtain ⟨taken, inner⟩ := ih (s := s * 10 + d) fits
      rw [fitDigits, if_pos fits]
      refine ⟨d :: taken, by rw [List.cons_append, ← inner.split], ?_, inner.bound, ?_, inner.next⟩
      · rw [inner.value, digitsNat_cons, List.length_cons]
        ring
      · rintro _ _ ⟨rfl, rfl⟩
        exact fits
    · rw [fitDigits, if_neg fits]
      refine ⟨[], rfl, by simp [digitsNat], small, nofun, ?_⟩
      rintro _ _ ⟨rfl, rfl⟩
      exact not_lt.mp fits

/-- A significand that has no room for a digit has 60 bits or more. -/
theorem Fits.large {s S d : ℕ} {ds taken rest : List ℕ} (fits : Fits s ds S taken (d :: rest))
    (digit : d < 10) : 10 ^ 18 ≤ S := by
  have next := fits.next d rest rfl
  omega

/-! ## Integers -/

/-- An integer that ends in so many places has nothing in them. -/
theorem eq_zero_of_places {A L V r : ℕ} {t : ℤ} (value : ((A * 10 ^ r + L : ℕ) : ℚ) * 10 ^ t = V)
    (rest : L < 10 ^ r) (places : t ≤ -r) : L = 0 := by
  obtain ⟨k, rfl⟩ : ∃ k : ℕ, t = -(r + k : ℕ) := ⟨(-t - r).toNat, by omega⟩
  rw [zpow_neg, zpow_natCast, ← div_eq_mul_inv, div_eq_iff (by positivity)] at value
  have whole : A * 10 ^ r + L = V * 10 ^ (r + k) := by exact_mod_cast value
  have divides : 10 ^ r ∣ L := by
    rw [← Nat.dvd_add_right (Dvd.intro_left A rfl), whole, pow_add]
    exact ⟨V * 10 ^ k, by ring⟩
  exact Nat.eq_zero_of_dvd_of_lt divides rest

/-- Either nothing but zeros is left out, or the significand is large and scaled up. -/
def Kept (S V : ℕ) (P : ℤ) : Prop := (S : ℚ) * 10 ^ P = V ∨ 0 ≤ P ∧ 10 ^ 18 ≤ S

theorem kept_of_exact {A V r : ℕ} {t P : ℤ} (value : ((A * 10 ^ r : ℕ) : ℚ) * 10 ^ t = V)
    (place : P = r + t) : Kept A V P := by
  left
  rw [place, zpow_add₀ (by norm_num), zpow_natCast, ← mul_assoc]
  exact_mod_cast value

section Places

variable {whole fraction taken dropped : List ℕ} {power : ℤ} {S V : ℕ}

/-- All digits before the point fit. -/
theorem kept_of_whole (digits : ∀ d ∈ fraction, d < 10)
    (fits : Fits (digitsNat whole) fraction S taken dropped)
    (value : (digitsNat (whole ++ fraction) : ℚ) * 10 ^ (power - fraction.length) = V) :
    Kept S V (power - taken.length) := by
  have split : fraction.length = taken.length + dropped.length := by
    rw [fits.split, List.length_append]
  have digitsDropped : ∀ d ∈ dropped, d < 10 := fun d member =>
    digits d (fits.split ▸ List.mem_append_right taken member)
  rw [fits.split, ← List.append_assoc, digitsNat_append _ dropped, digitsNat_append whole,
    ← fits.value, ← fits.split, split] at value
  by_cases lost : digitsNat dropped = 0
  · rw [lost, add_zero] at value
    exact kept_of_exact value (by omega)
  · right
    cases dropped with
    | nil => exact absurd rfl lost
    | cons d ds =>
      refine ⟨?_, fits.large (digitsDropped d List.mem_cons_self)⟩
      -- Scaled down, what is left out would stand after the point of an integer.
      by_contra below
      exact lost (eq_zero_of_places value (digitsNat_lt digitsDropped) (by omega))

/-- Some digits before the point do not fit.  Then at most one of those after it does, and none if
    they are all zeros. -/
theorem kept_of_part {head e : ℕ} {before excess : List ℕ} (digits : ∀ d ∈ whole ++ fraction, d < 10)
    (fits : Fits 0 whole head before (e :: excess)) (fits' : Fits head fraction S taken dropped)
    (value : (digitsNat (whole ++ fraction) : ℚ) * 10 ^ (power - fraction.length) = V) :
    Kept S V ((e :: excess).length - taken.length + power) := by
  have prefixed : head = digitsNat before := by rw [fits.value, zero_mul, zero_add]
  have digitsLost : ∀ d ∈ e :: excess ++ fraction, d < 10 := fun d member =>
    digits d (by
      rw [fits.split, List.append_assoc]
      exact List.mem_append_right before member)
  have large : 10 ^ 18 ≤ head := fits.large (digitsLost e List.mem_cons_self)
  rw [fits.split, List.append_assoc, digitsNat_append before, ← prefixed] at value
  have split : fraction.length = taken.length + dropped.length := by
    rw [fits'.split, List.length_append]
  have length : (e :: excess ++ fraction).length = (e :: excess).length + fraction.length :=
    List.length_append
  by_cases lost : digitsNat (e :: excess ++ fraction) = 0
  · rw [lost, add_zero] at value
    have zero : e = 0 := by
      rw [List.cons_append, digitsNat_cons] at lost
      have := Nat.eq_zero_of_add_eq_zero_right lost
      simpa using this
    -- The first digit that does not fit is a zero, so that no digit fits after it.
    cases taken with
    | nil =>
      have same : S = head := by simpa [digitsNat] using fits'.value
      rw [same]
      exact kept_of_exact value (by rw [length]; simp only [List.length_nil]; omega)
    | cons d ds =>
      have first := fits'.first d ds rfl
      have next := fits.next e excess rfl
      omega
  · right
    have one : taken.length ≤ 1 := by
      by_contra more
      have power : 10 ^ 2 ≤ 10 ^ taken.length := Nat.pow_le_pow_right (by decide) (by omega)
      have product := Nat.mul_le_mul large power
      have bound := fits'.bound
      rw [fits'.value] at bound
      omega
    refine ⟨?_, ?_⟩
    · by_contra below
      refine lost (eq_zero_of_places value (digitsNat_lt digitsLost) ?_)
      rw [length]
      push_cast
      omega
    · rw [fits'.value]
      have := Nat.le_mul_of_pos_right head (Nat.pow_pos (n := taken.length) (by decide : 0 < 10))
      omega

/-- An integer without point or power that is small enough to be misread fits as a whole. -/
theorem fits_of_misread {head y : ℕ} {before excess : List ℕ} (fits : Fits 0 whole head before excess)
    (misread : Misread (digitsNat whole) y) : excess = [] ∧ head = digitsNat whole := by
  obtain ⟨-, limit, -⟩ := misread
  have prefixed : head = digitsNat before := by rw [fits.value, zero_mul, zero_add]
  cases excess with
  | nil => exact ⟨rfl, by rw [prefixed, fits.split, List.append_nil]⟩
  | cons e excess =>
    have next := fits.next e excess rfl
    rw [fits.split, digitsNat_append, ← prefixed, digitsNat_cons, List.length_cons, pow_succ] at limit
    have unit : 1 ≤ 10 ^ excess.length := Nat.one_le_pow _ _ (by decide)
    nlinarith

end Places

section Read

variable {n : Numeral} {number : Number} {head S V y : ℕ} {before excess taken dropped : List ℕ}

theorem kept_of_fits (digits : ∀ d ∈ n.whole ++ n.fraction, d < 10)
    (value : (digitsNat (n.whole ++ n.fraction) : ℚ) * 10 ^ (n.power - n.fraction.length) = V)
    (fits : Fits 0 n.whole head before excess) (fits' : Fits head n.fraction S taken dropped) :
    Kept S V ((excess.length : ℤ) - (n.fraction.length - dropped.length) + n.power) := by
  have counted : (n.fraction.length : ℤ) - dropped.length = taken.length := by
    rw [fits'.split, List.length_append]
    push_cast
    ring
  rw [counted]
  cases excess with
  | nil =>
    have all : digitsNat n.whole = head := by
      rw [fits.value, fits.split, List.append_nil, zero_mul, zero_add]
    rw [← all] at fits'
    have digitsAfter : ∀ d ∈ n.fraction, d < 10 := fun d member =>
      digits d (List.mem_append_right _ member)
    simpa [neg_add_eq_sub] using kept_of_whole digitsAfter fits' value
  | cons e excess => exact kept_of_part digits fits fits' value

/-- What may be misread is written with a point or a power, or else it would have been read as an
    integer. -/
theorem isInteger_eq_false_of_misread (integer : n.isInteger = true → digitsNat n.whole = V)
    (fits : Fits 0 n.whole head before excess)
    (float : ¬(n.isInteger && excess.isEmpty &&
      !(n.negative && (head = 0 || twoTo 63 < head))) = true)
    (misread : Misread V y) : n.isInteger = false := by
  apply Bool.eq_false_iff.mpr
  intro isInteger
  apply float
  rw [← integer isInteger] at misread
  obtain ⟨rfl, same⟩ := fits_of_misread fits misread
  rw [← same] at misread
  obtain ⟨low, high, -⟩ := misread
  have nonzero : head ≠ 0 := by omega
  have signed : ¬twoTo 63 < head := by
    change ¬2 ^ 63 < head
    omega
  simp [isInteger, nonzero, signed]

/-- How a number is read that is an integer but for its sign: as that integer, or as a float that is
    not taken for another integer unless it may be misread. -/
theorem value?_cases (digits : ∀ d ∈ n.whole ++ n.fraction, d < 10)
    (plain : n.isInteger = true → n.fraction = [] ∧ n.power = 0)
    (value : (digitsNat (n.whole ++ n.fraction) : ℚ) * 10 ^ (n.power - n.fraction.length) = V)
    (read : n.value? = some number) :
    number = .int (if n.negative then -(V : ℤ) else V) ∨
      ∃ x, number = .float (.finite n.negative x) ∧ -1074 ≤ x.exponent ∧
        ∀ y : ℕ, x.value = y → y ≤ 2 ^ 53 → y = V ∨ n.isInteger = false ∧ Misread V y := by
  -- A number in integer form is its digits, with nothing behind them.
  have integer : n.isInteger = true → digitsNat n.whole = V := by
    intro isInteger
    obtain ⟨none, zero⟩ := plain isInteger
    rw [none, zero] at value
    simpa using value
  obtain ⟨before, fits⟩ := exists_fits (s := 0) (by norm_num) n.whole
  unfold Numeral.value? at read
  generalize fitDigits 0 n.whole = outcome at fits read
  obtain ⟨head, excess⟩ := outcome
  dsimp only at fits read
  split at read
  · next isInteger =>
    simp only [Bool.and_eq_true, List.isEmpty_iff] at isInteger
    obtain ⟨⟨isInteger, rfl⟩, -⟩ := isInteger
    have same : head = V := by
      rw [← integer isInteger, fits.value, fits.split, List.append_nil, zero_mul, zero_add]
    rw [← same]
    exact .inl (Option.some.inj read).symm
  · next float =>
    obtain ⟨taken, fits'⟩ := exists_fits fits.bound n.fraction
    generalize fitDigits head n.fraction = outcome' at fits' read
    obtain ⟨S, dropped⟩ := outcome'
    dsimp only at fits' read
    obtain ⟨x, scaled, rfl⟩ := Option.map_eq_some_iff.mp read
    refine .inr ⟨x, rfl, placed_of_scale scaled, fun y whole small => ?_⟩
    obtain exact | ⟨up, large⟩ := kept_of_fits digits value fits fits'
    · obtain same | misread := eq_or_misread fits'.bound exact scaled whole small
      · exact .inl same
      · exact .inr ⟨isInteger_eq_false_of_misread integer fits float misread, misread⟩
    · -- What was left out makes the result too large for the question.
      have beyond := gt_limit_of_large up scaled large
      rw [whole] at beyond
      have : 2 ^ 53 < y := by exact_mod_cast beyond
      omega

end Read

end Tollgate.Json
