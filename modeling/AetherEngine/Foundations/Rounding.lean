import Mathlib.Algebra.Field.Rat
import Mathlib.Algebra.Order.Field.Power
import Mathlib.Algebra.Order.Ring.Rat
import Mathlib.Data.Nat.Log
import Mathlib.Data.Rat.Lemmas
import Mathlib.Tactic.Linarith
import Mathlib.Tactic.Positivity
import Mathlib.Tactic.Ring

/-!
# Rounding to binary floating-point numbers

A format keeps so many binary digits and none below its least place.  Rounding
goes to the nearest number of the format, of two to the one with an even last
digit.  It does not change the order, keeps what the format holds, and commutes
with larger powers of two.
-/

namespace AetherEngine.Rounding

/-- A binary format: how many digits it keeps, the place of its last digit, and
the first power of two that is too large for it. -/
structure Format where
  digits : Nat
  least : Int
  top : Nat
  digits_pos : 0 < digits

/-! ## Whole quotients -/

/-- The whole number nearest to a quotient, of two the even one. -/
def roundQuotient (dividend divisor : Nat) : Nat :=
  let whole := dividend / divisor
  let rest := dividend % divisor
  if 2 * rest < divisor then whole
  else if 2 * rest = divisor then whole + whole % 2
  else whole + 1

theorem roundQuotient_mul (whole : Nat) {divisor : Nat}
    (positive : 0 < divisor) :
    roundQuotient (whole * divisor) divisor = whole := by
  rw [roundQuotient, Nat.mul_mod_left, Nat.mul_div_left whole positive]
  exact if_pos positive

/-- What it takes for a quotient to be rounded to more than a number. -/
theorem lt_roundQuotient_iff {whole dividend divisor : Nat}
    (positive : 0 < divisor) :
    whole < roundQuotient dividend divisor ↔
      (2 * whole + 1) * divisor < 2 * dividend ∨
        (2 * whole + 1) * divisor = 2 * dividend ∧ whole % 2 = 1 := by
  have split := Nat.div_add_mod dividend divisor
  have below := Nat.mod_lt dividend positive
  rw [roundQuotient]
  generalize dividend / divisor = quotient at *
  generalize dividend % divisor = rest at *
  subst split
  have spread : (2 * whole + 1) * divisor =
      2 * (divisor * whole) + divisor := by
    ring
  rw [spread]
  rcases Nat.lt_trichotomy whole quotient with less | rfl | more
  · have next := Nat.mul_le_mul_left divisor less
    rw [Nat.mul_succ] at next
    split_ifs
    · omega
    · omega
    · omega
  · split_ifs
    · omega
    · omega
    · omega
  · have next := Nat.mul_le_mul_left divisor more
    rw [Nat.mul_succ] at next
    split_ifs
    · omega
    · omega
    · omega

/-- Rounding keeps the order of quotients. -/
theorem roundQuotient_le_roundQuotient {dividend divisor : Nat}
    {dividend' divisor' : Nat} (positive : 0 < divisor)
    (positive' : 0 < divisor')
    (order : dividend * divisor' ≤ dividend' * divisor) :
    roundQuotient dividend divisor ≤ roundQuotient dividend' divisor' := by
  rw [← not_lt]
  intro less
  rw [lt_roundQuotient_iff positive] at less
  have reached : ¬ roundQuotient dividend' divisor' <
      roundQuotient dividend' divisor' := lt_irrefl _
  rw [lt_roundQuotient_iff positive', not_or] at reached
  generalize roundQuotient dividend' divisor' = whole at *
  have scaled : (2 * whole + 1) * divisor * divisor' ≤
      (2 * whole + 1) * divisor' * divisor :=
    (Nat.mul_right_comm _ _ _).le
  obtain ⟨notLess, notEven⟩ := reached
  have upper := Nat.mul_le_mul_right divisor (Nat.le_of_not_lt notLess)
  rcases less with less | ⟨same, odd⟩
  · have lower := Nat.mul_lt_mul_of_pos_right less positive'
    nlinarith
  · have lower : (2 * whole + 1) * divisor * divisor' =
        2 * dividend * divisor' := by
      rw [same]
    apply notEven
    refine ⟨?_, odd⟩
    apply Nat.eq_of_mul_eq_mul_right positive
    nlinarith

/-! ## Exponents -/

/-- The exponent of the last power of two that is not above a number. -/
def exponent (q : ℚ) : ℤ :=
  let estimate : ℤ := q.num.natAbs.log2 - q.den.log2
  if q.num.natAbs * 2 ^ (-estimate).toNat < q.den * 2 ^ estimate.toNat then
    estimate - 1
  else
    estimate

theorem two_zpow (e : ℤ) :
    (2 : ℚ) ^ e = (2 ^ e.toNat : ℕ) / (2 ^ (-e).toNat : ℕ) := by
  rw [Nat.cast_pow, Nat.cast_pow, Nat.cast_ofNat, ← zpow_natCast,
    ← zpow_natCast, ← zpow_sub₀ two_ne_zero, Int.toNat_sub_toNat_neg]

theorem abs_eq_natAbs_div (q : ℚ) : |q| = (q.num.natAbs : ℚ) / q.den := by
  rw [Nat.cast_natAbs, Int.cast_abs]
  nth_rewrite 1 [← q.num_div_den]
  rw [abs_div, Nat.abs_cast]

theorem zpow_pos_two (e : ℤ) : 0 < (2 : ℚ) ^ e :=
  zpow_pos two_pos e

private theorem zpow_le_abs_iff (e : ℤ) (q : ℚ) :
    (2 : ℚ) ^ e ≤ |q| ↔
      q.den * 2 ^ e.toNat ≤ q.num.natAbs * 2 ^ (-e).toNat := by
  have denPositive : (0 : ℚ) < q.den := Nat.cast_pos.mpr q.den_pos
  have scalePositive : (0 : ℚ) < (2 ^ (-e).toNat : ℕ) :=
    Nat.cast_pos.mpr (Nat.two_pow_pos _)
  rw [two_zpow, abs_eq_natAbs_div, div_le_div_iff₀ scalePositive denPositive,
    ← Nat.cast_mul, ← Nat.cast_mul, Nat.cast_le, Nat.mul_comm]

theorem exponent_spec {q : ℚ} (nonzero : q ≠ 0) :
    (2 : ℚ) ^ exponent q ≤ |q| ∧ |q| < (2 : ℚ) ^ (exponent q + 1) := by
  have numerator : q.num.natAbs ≠ 0 :=
    Int.natAbs_ne_zero.mpr (Rat.num_ne_zero.mpr nonzero)
  have denPositive : (0 : ℚ) < q.den := Nat.cast_pos.mpr q.den_pos
  have lower : ((2 : ℚ) ^ q.num.natAbs.log2) ≤ q.num.natAbs := by
    exact_mod_cast Nat.log2_self_le numerator
  have upper : (q.num.natAbs : ℚ) < 2 ^ (q.num.natAbs.log2 + 1) := by
    exact_mod_cast Nat.lt_log2_self
  have lower' : ((2 : ℚ) ^ q.den.log2) ≤ q.den := by
    exact_mod_cast Nat.log2_self_le q.den_nz
  have upper' : (q.den : ℚ) < 2 ^ (q.den.log2 + 1) := by
    exact_mod_cast Nat.lt_log2_self
  rw [exponent]
  generalize estimateIs :
    (q.num.natAbs.log2 : ℤ) - (q.den.log2 : ℤ) = estimate
  have above : |q| < (2 : ℚ) ^ (estimate + 1) := by
    have same : (2 : ℚ) ^ (estimate + 1) =
        2 ^ (q.num.natAbs.log2 + 1) / 2 ^ q.den.log2 := by
      rw [← zpow_natCast, ← zpow_natCast, ← zpow_sub₀ two_ne_zero]
      congr 1
      omega
    rw [same, abs_eq_natAbs_div]
    exact div_lt_div₀ upper lower' (by positivity) (by positivity)
  have below : (2 : ℚ) ^ (estimate - 1) ≤ |q| := by
    have same : (2 : ℚ) ^ (estimate - 1) =
        2 ^ q.num.natAbs.log2 / 2 ^ (q.den.log2 + 1) := by
      rw [← zpow_natCast, ← zpow_natCast, ← zpow_sub₀ two_ne_zero]
      congr 1
      omega
    rw [same, abs_eq_natAbs_div]
    exact div_le_div₀ (by positivity) lower denPositive upper'.le
  split_ifs with less
  · rw [← not_le, ← zpow_le_abs_iff, not_le] at less
    rw [sub_add_cancel]
    exact ⟨below, less⟩
  · rw [not_lt, ← zpow_le_abs_iff] at less
    exact ⟨less, above⟩

private theorem exponent_le_exponent {q q' : ℚ} (nonzero : q ≠ 0)
    (order : |q| ≤ |q'|) : exponent q ≤ exponent q' := by
  have nonzero' : q' ≠ 0 := by
    rw [← abs_pos] at nonzero ⊢
    exact nonzero.trans_le order
  have reach := ((exponent_spec nonzero).1.trans order).trans_lt
    (exponent_spec nonzero').2
  exact Int.lt_add_one_iff.mp ((zpow_lt_zpow_iff_right₀ one_lt_two).mp reach)

private theorem exponent_eq {q : ℚ} {e : ℤ} (lower : (2 : ℚ) ^ e ≤ |q|)
    (upper : |q| < (2 : ℚ) ^ (e + 1)) : exponent q = e := by
  have nonzero : q ≠ 0 := by
    rw [← abs_pos]
    exact (zpow_pos_two e).trans_le lower
  obtain ⟨least, greatest⟩ := exponent_spec nonzero
  have upward := (zpow_lt_zpow_iff_right₀ one_lt_two).mp
    (lower.trans_lt greatest)
  have downward := (zpow_lt_zpow_iff_right₀ one_lt_two).mp
    (least.trans_lt upper)
  omega

private theorem exponent_neg (q : ℚ) : exponent (-q) = exponent q := by
  rw [exponent, exponent, Rat.neg_num, Rat.neg_den, Int.natAbs_neg]

/-! ## The nearest number of a format -/

section Nearest

variable (format : Format)

/-- The place of the last digit that is kept of a number. -/
def place (q : ℚ) : ℤ :=
  let digit := exponent q + 1 - format.digits
  if format.least ≤ digit then digit else format.least

/-- The magnitude in units of the last digit. -/
def steps (q : ℚ) : ℕ :=
  roundQuotient (q.num.natAbs * 2 ^ (-place format q).toNat)
    (q.den * 2 ^ (place format q).toNat)

/-- The nearest number of the format, however large. -/
def nearest (q : ℚ) : ℚ :=
  mkRat (q.num.sign * (steps format q * 2 ^ (place format q).toNat : ℕ))
    (2 ^ (-place format q).toNat)

/-- The magnitude of the nearest number. -/
def size (q : ℚ) : ℚ :=
  steps format q * 2 ^ place format q

variable {format}

theorem nearest_eq (q : ℚ) :
    nearest format q = q.num.sign * size format q := by
  rw [nearest, size, Rat.mkRat_eq_div, two_zpow, Int.cast_mul,
    Int.cast_natCast, Nat.cast_mul, mul_div_assoc, mul_div_assoc]

theorem size_nonneg (q : ℚ) : 0 ≤ size format q :=
  mul_nonneg (Nat.cast_nonneg _) (zpow_pos_two _).le

private theorem place_neg (q : ℚ) : place format (-q) = place format q := by
  rw [place, place, exponent_neg]

private theorem size_neg (q : ℚ) : size format (-q) = size format q := by
  rw [size, size, steps, steps, place_neg, Rat.neg_num, Rat.neg_den,
    Int.natAbs_neg]

theorem nearest_neg (q : ℚ) : nearest format (-q) = -nearest format q := by
  rw [nearest_eq, nearest_eq, size_neg, Rat.neg_num, Int.sign_neg,
    Int.cast_neg, neg_mul]

theorem least_le_place (q : ℚ) : format.least ≤ place format q := by
  rw [place]
  split_ifs with within
  · exact within
  · exact le_rfl

private theorem digit_le_place (q : ℚ) :
    exponent q + 1 - format.digits ≤ place format q := by
  rw [place]
  split_ifs with within
  · exact le_rfl
  · exact (lt_of_not_ge within).le

theorem place_cases (q : ℚ) :
    place format q = exponent q + 1 - format.digits ∨
      place format q = format.least ∧
        exponent q + 1 - format.digits < format.least := by
  rw [place]
  split_ifs with within
  · exact Or.inl rfl
  · exact Or.inr ⟨rfl, lt_of_not_ge within⟩

/-- Steps compare as the magnitudes in units of their last digits. -/
theorem steps_le_steps {q q' : ℚ}
    (order : |q| * 2 ^ place format q' ≤ |q'| * 2 ^ place format q) :
    steps format q ≤ steps format q' := by
  have positive := Nat.mul_pos q.den_pos
    (Nat.two_pow_pos (place format q).toNat)
  have positive' := Nat.mul_pos q'.den_pos
    (Nat.two_pow_pos (place format q').toNat)
  apply roundQuotient_le_roundQuotient positive positive'
  rw [two_zpow, two_zpow, abs_eq_natAbs_div, abs_eq_natAbs_div,
    div_mul_div_comm, div_mul_div_comm, div_le_div_iff₀] at order
  · norm_cast at order
    calc _ = q.num.natAbs * 2 ^ (place format q').toNat *
          (q'.den * 2 ^ (-place format q).toNat) := by ring
      _ ≤ q'.num.natAbs * 2 ^ (place format q).toNat *
          (q.den * 2 ^ (-place format q').toNat) := order
      _ = _ := by ring
  · exact mul_pos (Nat.cast_pos.mpr q.den_pos)
      (Nat.cast_pos.mpr (Nat.two_pow_pos _))
  · exact mul_pos (Nat.cast_pos.mpr q'.den_pos)
      (Nat.cast_pos.mpr (Nat.two_pow_pos _))

private theorem steps_of_multiple {q : ℚ} {number : ℕ}
    (multiple : |q| = number * 2 ^ place format q) :
    steps format q = number := by
  have positive := Nat.mul_pos q.den_pos
    (Nat.two_pow_pos (place format q).toNat)
  have dividend : q.num.natAbs * 2 ^ (-place format q).toNat =
      number * (q.den * 2 ^ (place format q).toNat) := by
    rw [two_zpow, abs_eq_natAbs_div, ← mul_div_assoc, div_eq_div_iff
      (Nat.cast_ne_zero.mpr q.den_nz)
      (Nat.cast_ne_zero.mpr (Nat.two_pow_pos _).ne')] at multiple
    norm_cast at multiple
    rw [multiple]
    ring
  rw [steps, dividend]
  exact roundQuotient_mul number positive

private theorem steps_le {q : ℚ} {number : ℕ}
    (within : |q| ≤ number * 2 ^ place format q) :
    steps format q ≤ number := by
  have positive := Nat.mul_pos q.den_pos
    (Nat.two_pow_pos (place format q).toNat)
  have limit := roundQuotient_mul number positive
  rw [← limit]
  apply roundQuotient_le_roundQuotient positive positive
  apply Nat.mul_le_mul_right
  rw [two_zpow, abs_eq_natAbs_div, ← mul_div_assoc, div_le_div_iff₀
    (Nat.cast_pos.mpr q.den_pos)
    (Nat.cast_pos.mpr (Nat.two_pow_pos _))] at within
  norm_cast at within
  calc _ ≤ number * 2 ^ (place format q).toNat * q.den := within
    _ = _ := by ring

private theorem le_steps {q : ℚ} {number : ℕ}
    (within : number * 2 ^ place format q ≤ |q|) :
    number ≤ steps format q := by
  have positive := Nat.mul_pos q.den_pos
    (Nat.two_pow_pos (place format q).toNat)
  have limit := roundQuotient_mul number positive
  rw [← limit]
  apply roundQuotient_le_roundQuotient positive positive
  apply Nat.mul_le_mul_right
  rw [two_zpow, abs_eq_natAbs_div, ← mul_div_assoc, div_le_div_iff₀
    (Nat.cast_pos.mpr (Nat.two_pow_pos _))
    (Nat.cast_pos.mpr q.den_pos)] at within
  norm_cast at within
  calc _ = number * 2 ^ (place format q).toNat * q.den := by ring
    _ ≤ _ := within

theorem size_zero : size format 0 = 0 := by
  have none : steps format 0 = 0 :=
    steps_of_multiple (by rw [abs_zero, Nat.cast_zero, zero_mul])
  rw [size, none, Nat.cast_zero, zero_mul]

theorem zpow_eq_mul {low high : ℤ} (order : low ≤ high) :
    (2 : ℚ) ^ high = (2 ^ (high - low).toNat : ℕ) * 2 ^ low := by
  rw [Nat.cast_pow, Nat.cast_ofNat, ← zpow_natCast, ← zpow_add₀ two_ne_zero,
    Int.toNat_of_nonneg (sub_nonneg.mpr order), sub_add_cancel]

private theorem size_le_zpow {q : ℚ} {e : ℤ} (order : place format q ≤ e)
    (within : |q| ≤ 2 ^ e) : size format q ≤ 2 ^ e := by
  rw [zpow_eq_mul order] at within ⊢
  exact mul_le_mul_of_nonneg_right (Nat.cast_le.mpr (steps_le within))
    (zpow_pos_two _).le

private theorem zpow_le_size {q : ℚ} {e : ℤ} (order : place format q ≤ e)
    (within : (2 : ℚ) ^ e ≤ |q|) : (2 : ℚ) ^ e ≤ size format q := by
  rw [zpow_eq_mul order] at within ⊢
  exact mul_le_mul_of_nonneg_right (Nat.cast_le.mpr (le_steps within))
    (zpow_pos_two _).le

/-- Where the last digits differ in place, a power of two lies between. -/
theorem size_le_size {q q' : ℚ} (order : |q| ≤ |q'|) :
    size format q ≤ size format q' := by
  by_cases zero : q = 0
  · rw [zero, size_zero]
    exact size_nonneg q'
  have nonzero' : q' ≠ 0 := by
    rw [← abs_pos]
    exact (abs_pos.mpr zero).trans_le order
  have exponents := exponent_le_exponent zero order
  have digit := @digit_le_place format q
  have least := @least_le_place format q
  have least' := @least_le_place format q'
  by_cases same : place format q = place format q'
  · rw [size, size, same]
    apply mul_le_mul_of_nonneg_right _ (zpow_pos_two _).le
    apply Nat.cast_le.mpr
    apply steps_le_steps
    rw [same]
    exact mul_le_mul_of_nonneg_right order (zpow_pos_two _).le
  · have digits := format.digits_pos
    have upper := (exponent_spec zero).2.le
    obtain ⟨lower', -⟩ := exponent_spec nonzero'
    have places := @place_cases format q
    have places' := @place_cases format q'
    have between : |q| ≤ 2 ^ exponent q' :=
      upper.trans (zpow_le_zpow_right₀ one_le_two (by omega))
    exact (size_le_zpow (by omega) between).trans
      (zpow_le_size (by omega) lower')

theorem nearest_of_nonneg {q : ℚ} (nonneg : 0 ≤ q) :
    nearest format q = size format q := by
  rcases nonneg.eq_or_lt with zero | positive
  · rw [nearest_eq, ← zero, size_zero, mul_zero]
  · rw [nearest_eq, Int.sign_eq_one_of_pos (Rat.num_pos.mpr positive),
      Int.cast_one, one_mul]

theorem nearest_of_nonpos {q : ℚ} (nonpos : q ≤ 0) :
    nearest format q = -size format q := by
  rw [← nearest_of_nonneg (neg_nonneg.mpr nonpos) |>.trans (size_neg q),
    nearest_neg, neg_neg]

theorem nearest_nonneg {q : ℚ} (nonneg : 0 ≤ q) : 0 ≤ nearest format q := by
  rw [nearest_of_nonneg nonneg]
  exact size_nonneg q

/-- Rounding keeps the order. -/
theorem nearest_le_nearest {q q' : ℚ} (order : q ≤ q') :
    nearest format q ≤ nearest format q' := by
  rcases le_total 0 q with nonneg | nonpos
  · have nonneg' := nonneg.trans order
    rw [nearest_of_nonneg nonneg, nearest_of_nonneg nonneg']
    apply size_le_size
    rw [abs_of_nonneg nonneg, abs_of_nonneg nonneg']
    exact order
  · rw [nearest_of_nonpos nonpos]
    rcases le_total 0 q' with nonneg' | nonpos'
    · exact (neg_nonpos.mpr (size_nonneg q)).trans (nearest_nonneg nonneg')
    · rw [nearest_of_nonpos nonpos']
      apply neg_le_neg
      apply size_le_size
      rw [abs_of_nonpos nonpos, abs_of_nonpos nonpos']
      exact neg_le_neg order

/-! ### Numbers of the format -/

private theorem nearest_of_multiple {q : ℚ} {number : ℕ}
    (multiple : |q| = number * 2 ^ place format q) :
    nearest format q = q := by
  have size : size format q = |q| := by
    rw [size, steps_of_multiple multiple, multiple]
  rcases le_total 0 q with nonneg | nonpos
  · rw [nearest_of_nonneg nonneg, size, abs_of_nonneg nonneg]
  · rw [nearest_of_nonpos nonpos, size, abs_of_nonpos nonpos, neg_neg]

private theorem nearest_of_place_le {q : ℚ} {number : ℤ} {e : ℤ}
    (value : q = number * 2 ^ e) (order : place format q ≤ e) :
    nearest format q = q := by
  have multiple : |q| =
      (number.natAbs * 2 ^ (e - place format q).toNat : ℕ) *
        2 ^ place format q := by
    rw [Nat.cast_mul, mul_assoc, ← zpow_eq_mul order]
    nth_rewrite 1 [value]
    rw [abs_mul, abs_of_pos (zpow_pos_two e), Nat.cast_natAbs, Int.cast_abs]
  exact nearest_of_multiple multiple

/-- A number of so many digits, none below the least place, is kept. -/
theorem nearest_of_digits {number : ℤ} {e : ℤ}
    (few : number.natAbs ≤ 2 ^ format.digits) (above : format.least ≤ e) :
    nearest format (number * 2 ^ e) = number * 2 ^ e := by
  by_cases zero : number = 0
  · rw [zero, Int.cast_zero, zero_mul, nearest_of_nonneg le_rfl, size_zero]
  have size : |(number : ℚ) * 2 ^ e| = number.natAbs * 2 ^ e := by
    rw [abs_mul, abs_of_pos (zpow_pos_two e), Nat.cast_natAbs, Int.cast_abs]
  have nonzero : (number : ℚ) * 2 ^ e ≠ 0 :=
    mul_ne_zero (Int.cast_ne_zero.mpr zero) (zpow_pos_two e).ne'
  have places := @place_cases format ((number : ℚ) * 2 ^ e)
  have digits := format.digits_pos
  obtain ⟨lower, -⟩ := exponent_spec nonzero
  have scaled : ((2 ^ format.digits : ℕ) : ℚ) * 2 ^ e =
      2 ^ (format.digits + e) := by
    rw [Nat.cast_pow, Nat.cast_ofNat, ← zpow_natCast,
      ← zpow_add₀ two_ne_zero]
  rcases few.lt_or_eq with fewer | full
  · have below : |(number : ℚ) * 2 ^ e| < 2 ^ (format.digits + e) := by
      rw [size, ← scaled]
      exact mul_lt_mul_of_pos_right (Nat.cast_lt.mpr fewer) (zpow_pos_two e)
    have bound := (zpow_lt_zpow_iff_right₀ one_lt_two).mp
      (lower.trans_lt below)
    exact nearest_of_place_le rfl (by omega)
  · rw [full, scaled] at size
    have exact : exponent ((number : ℚ) * 2 ^ e) = format.digits + e := by
      apply exponent_eq size.ge
      rw [size]
      exact zpow_lt_zpow_right₀ one_lt_two (lt_add_one _)
    have power : (2 : ℚ) ^ (format.digits + e) =
        (2 ^ (format.digits + e - place format ((number : ℚ) * 2 ^ e)).toNat :
          ℕ) * 2 ^ place format ((number : ℚ) * 2 ^ e) :=
      zpow_eq_mul (by omega)
    rw [power] at size
    exact nearest_of_multiple size

private theorem steps_le_digits (q : ℚ) :
    steps format q ≤ 2 ^ format.digits := by
  apply steps_le
  by_cases zero : q = 0
  · rw [zero, abs_zero]
    exact mul_nonneg (Nat.cast_nonneg _) (zpow_pos_two _).le
  · have reach := @digit_le_place format q
    rw [Nat.cast_pow, Nat.cast_ofNat, ← zpow_natCast,
      ← zpow_add₀ two_ne_zero]
    exact (exponent_spec zero).2.le.trans
      (zpow_le_zpow_right₀ one_le_two (by omega))

private theorem nearest_eq_mul (q : ℚ) :
    nearest format q =
      ((q.num.sign * steps format q : ℤ) : ℚ) * 2 ^ place format q := by
  rw [nearest_eq, size, Int.cast_mul, Int.cast_natCast, mul_assoc]

theorem nearest_nearest (q : ℚ) :
    nearest format (nearest format q) = nearest format q := by
  rw [nearest_eq_mul q]
  apply nearest_of_digits _ (least_le_place q)
  rw [Int.natAbs_mul, Int.natAbs_natCast]
  have unit : q.num.sign.natAbs ≤ 1 := by
    rw [Int.natAbs_sign]
    split_ifs
    · exact Nat.zero_le 1
    · exact le_rfl
  exact (Nat.mul_le_mul unit (steps_le_digits q)).trans_eq (Nat.one_mul _)

/-- A multiple of the least unit. -/
def Whole (format : Format) (q : ℚ) : Prop :=
  ∃ number : ℤ, q = number * 2 ^ format.least

theorem Whole.add {q q' : ℚ} (whole : Whole format q)
    (whole' : Whole format q') : Whole format (q + q') := by
  obtain ⟨number, rfl⟩ := whole
  obtain ⟨number', rfl⟩ := whole'
  exact ⟨number + number', by rw [Int.cast_add, add_mul]⟩

end Nearest

end AetherEngine.Rounding
