import AetherEngine.Foundations.Doubles
import AetherEngine.Foundations.Rounding

/-!
# Floating-point numbers of a binary format

The values a format can hold, with every operation rounded to the nearest of
them and to an infinity where that is too large.  Infinities and numbers that
are none behave as in exact arithmetic; there is one zero.

A bound that the format holds survives rounding: what is not above it, and may
be infinitely far below, stays so.
-/

namespace AetherEngine.Floats

open AetherEngine.Doubles
open AetherEngine.Rounding

/-- Is a number too large for the format? -/
def tooLarge (format : Format) (q : ℚ) : Bool :=
  2 ^ format.top * q.den ≤ q.num.natAbs

/-- Round a finite value; all others stay. -/
def roundDouble (format : Format) : Double ℚ → Double ℚ
  | .finite q =>
      if tooLarge format (nearest format q) then
        .infinite (decide (q < 0))
      else
        .finite (nearest format q)
  | other => other

/-- A value that the format holds. -/
def Fits (format : Format) (value : Double ℚ) : Prop :=
  ∀ q, value = .finite q → nearest format q = q ∧ tooLarge format q = false

/-- A floating-point number. -/
structure Rounded (format : Format) where
  value : Double ℚ
  fits : Fits format value

private theorem fits_roundDouble (format : Format) (value : Double ℚ) :
    Fits format (roundDouble format value) := by
  intro q rounded
  cases value with
  | finite number =>
      rw [roundDouble] at rounded
      split at rounded
      · cases rounded
      · next within =>
          cases rounded
          exact ⟨nearest_nearest number, Bool.eq_false_of_not_eq_true within⟩
  | infinite negative =>
      cases rounded
  | nan =>
      cases rounded

/-- The format of 64-bit numbers. -/
def binary64 : Format where
  digits := 53
  least := -1074
  top := 1024
  digits_pos := by decide

theorem binary64_digits : binary64.digits = 53 :=
  rfl

theorem binary64_digits_lt : binary64.digits < binary64.top := by
  decide

theorem binary64_least : binary64.least ≤ 0 := by
  decide

theorem binary64_top : binary64.top = 1024 :=
  rfl

theorem two_lt_top : (2 : ℚ) < 2 ^ binary64.top := by
  rw [binary64_top]
  exact lt_self_pow₀ one_lt_two (by decide)

attribute [irreducible] binary64

abbrev F64 :=
  Rounded binary64

namespace Rounded

variable {format : Format}

@[ext]
theorem ext_value {first second : Rounded format}
    (same : first.value = second.value) : first = second := by
  cases first
  cases second
  cases same
  rfl

/-- The floating-point number nearest to a value. -/
def round (format : Format) (value : Double ℚ) : Rounded format :=
  ⟨roundDouble format value, fits_roundDouble format value⟩

def ofNat (format : Format) (number : ℕ) : Rounded format :=
  round format (.finite number)

def nan (format : Format) : Rounded format :=
  round format .nan

def add (first second : Rounded format) : Rounded format :=
  round format (first.value.add second.value)

def sub (first second : Rounded format) : Rounded format :=
  round format (first.value.sub second.value)

def mul (first second : Rounded format) : Rounded format :=
  round format (first.value.mul second.value)

def div (first second : Rounded format) : Rounded format :=
  round format (first.value.div second.value)

def partialCmp (first second : Rounded format) : Option Ordering :=
  first.value.partialCmp second.value

def le (first second : Rounded format) : Bool :=
  first.value.le second.value

def lt (first second : Rounded format) : Bool :=
  first.value.lt second.value

def isFinite (number : Rounded format) : Bool :=
  number.value.isFinite

/-- The bounds take over outside their range. -/
def clamp (number low high : Rounded format) : Rounded format :=
  if number.lt low then low
  else if high.lt number then high
  else number

theorem round_value (value : Double ℚ) :
    (round format value).value = roundDouble format value :=
  rfl

theorem ofNat_round (number : ℕ) :
    (ofNat format number).value = roundDouble format (.finite number) :=
  rfl

theorem add_value (first second : Rounded format) :
    (first.add second).value =
      roundDouble format (first.value.add second.value) :=
  rfl

theorem mul_value (first second : Rounded format) :
    (first.mul second).value =
      roundDouble format (first.value.mul second.value) :=
  rfl

theorem div_value (first second : Rounded format) :
    (first.div second).value =
      roundDouble format (first.value.div second.value) :=
  rfl

/-- The mean of two values with their weights, as it is computed. -/
def weightedMean (mean weight mean' weight' : Rounded format) :
    Rounded format :=
  ((mean.mul weight).add (mean'.mul weight')).div (weight.add weight')

end Rounded

/-! ## Rounding values -/

section Round

variable {format : Format}

theorem tooLarge_eq_false_iff {q : ℚ} :
    tooLarge format q = false ↔ |q| < 2 ^ format.top := by
  have denPositive : (0 : ℚ) < q.den := Nat.cast_pos.mpr q.den_pos
  rw [tooLarge, decide_eq_false_iff_not, not_le, abs_eq_natAbs_div,
    div_lt_iff₀ denPositive]
  exact_mod_cast Iff.rfl

theorem roundDouble_finite {q : ℚ}
    (within : |nearest format q| < 2 ^ format.top) :
    roundDouble format (.finite q) = .finite (nearest format q) := by
  rw [roundDouble, if_neg]
  rw [tooLarge_eq_false_iff.mpr within]
  exact Bool.false_ne_true

theorem roundDouble_nan : roundDouble format .nan = .nan :=
  rfl

theorem roundDouble_infinite (negative : Bool) :
    roundDouble format (.infinite negative) = .infinite negative :=
  rfl

theorem roundDouble_finite_cases (format : Format) (q : ℚ) :
    roundDouble format (.finite q) = .infinite (decide (q < 0)) ∨
      roundDouble format (.finite q) = .finite (nearest format q) := by
  rw [roundDouble]
  split
  · exact Or.inl rfl
  · exact Or.inr rfl

/-- What the format holds is not changed. -/
theorem roundDouble_of_fits {value : Double ℚ} (fits : Fits format value) :
    roundDouble format value = value := by
  cases value with
  | finite q =>
      obtain ⟨same, within⟩ := fits q rfl
      rw [roundDouble_finite, same]
      rw [same]
      exact tooLarge_eq_false_iff.mp within
  | infinite negative =>
      rfl
  | nan =>
      rfl

theorem roundDouble_neg (value : Double ℚ) :
    roundDouble format value.neg = (roundDouble format value).neg := by
  cases value with
  | finite q =>
      have size : tooLarge format (nearest format (-q)) =
          tooLarge format (nearest format q) := by
        rw [nearest_neg, tooLarge, tooLarge, Rat.neg_num, Rat.neg_den,
          Int.natAbs_neg]
      rw [Double.neg, roundDouble, roundDouble, size, nearest_neg]
      split
      · next large =>
          -- zero is not too large, so the signs differ
          have nonzero : q ≠ 0 := by
            rintro rfl
            rw [nearest_of_nonneg le_rfl, size_zero] at large
            have none : tooLarge format 0 = false := by
              rw [tooLarge_eq_false_iff, abs_zero]
              exact pow_pos two_pos _
            rw [none] at large
            cases large
          rw [Double.neg]
          congr 1
          rcases nonzero.lt_or_gt with negative | positive
          · simp [negative, negative.le]
          · simp [positive, positive.le]
      · rfl
  | infinite negative =>
      rfl
  | nan =>
      rfl

theorem roundDouble_ne_nan {value : Double ℚ} (number : value ≠ .nan) :
    roundDouble format value ≠ .nan := by
  cases value with
  | finite q =>
      rw [roundDouble]
      split
      · nofun
      · nofun
  | infinite negative =>
      exact number
  | nan =>
      exact number

/-- A bound on a value is a bound on its rounding. -/
theorem atMost_roundDouble {value : Double ℚ} {bound : ℚ}
    (below : value.AtMost bound)
    (within : nearest format bound < 2 ^ format.top) :
    (roundDouble format value).AtMost (nearest format bound) := by
  cases value with
  | finite q =>
      have order := @nearest_le_nearest format q bound below
      rw [roundDouble]
      split
      · next large =>
          refine decide_eq_true (lt_of_not_ge fun nonneg => ?_)
          have small : tooLarge format (nearest format q) = false := by
            rw [tooLarge_eq_false_iff, abs_of_nonneg (nearest_nonneg nonneg)]
            exact order.trans_lt within
          rw [small] at large
          cases large
      · exact order
  | infinite negative =>
      exact below
  | nan =>
      exact below

theorem nearest_two_pow (below : format.least ≤ 0) (shift : ℕ) :
    nearest format (2 ^ shift) = 2 ^ shift := by
  have kept := @nearest_of_digits format 1 shift
    Nat.one_le_two_pow (below.trans (Int.natCast_nonneg shift))
  rw [Int.cast_one, one_mul, zpow_natCast] at kept
  exact kept

theorem nearest_natCast (below : format.least ≤ 0) {number : ℕ}
    (few : number ≤ 2 ^ format.digits) :
    nearest format number = number := by
  have kept := @nearest_of_digits format number 0 few below
  rw [zpow_zero, mul_one, Int.cast_natCast] at kept
  exact kept

/-- A bound that may be multiplied into a rounding: zero or a power of two. -/
def Barrier (format : Format) (barrier : ℚ) : Prop :=
  barrier = 0 ∨ ∃ shift : ℕ, shift < format.top ∧ barrier = 2 ^ shift

namespace Barrier

variable {barrier : ℚ}

theorem nonneg (isBarrier : Barrier format barrier) : 0 ≤ barrier := by
  rcases isBarrier with rfl | ⟨shift, -, rfl⟩
  · exact le_rfl
  · exact (pow_pos two_pos shift).le

end Barrier

end Round

namespace Rounded

variable {format : Format}

def neg (number : Rounded format) : Rounded format where
  value := number.value.neg
  fits := by
    have fits := fits_roundDouble format number.value.neg
    rw [roundDouble_neg, roundDouble_of_fits number.fits] at fits
    exact fits

/-- A finite value is a number of the format. -/
theorem nearest_value {number : Rounded format} {q : ℚ}
    (value : number.value = .finite q) : nearest format q = q :=
  (number.fits q value).1

theorem add_swap (first second : Rounded format) :
    first.add second = second.add first := by
  apply ext_value
  rw [add_value, add_value, Double.add_swap]

/-- Rounding does not fall below a number of the format. -/
theorem le_nearest {number : Rounded format} {q bound : ℚ}
    (value : number.value = .finite q) (order : q ≤ bound) :
    q ≤ nearest format bound := by
  calc q = nearest format q := (nearest_value value).symm
    _ ≤ nearest format bound := nearest_le_nearest order

theorem ofNat_value (least : format.least ≤ 0)
    (inRange : format.digits < format.top) {number : ℕ}
    (few : number ≤ 2 ^ format.digits) :
    (ofNat format number).value = .finite number := by
  have kept : nearest format number = number := nearest_natCast least few
  have small : (number : ℚ) ≤ 2 ^ format.digits := by
    exact_mod_cast few
  have rounded : roundDouble format (.finite number) =
      .finite (nearest format number) := by
    apply roundDouble_finite
    rw [kept, abs_of_nonneg (Nat.cast_nonneg number)]
    exact small.trans_lt (pow_lt_pow_right₀ one_lt_two inRange)
  rw [kept] at rounded
  exact rounded

theorem add_of_zero {zero number : Rounded format}
    (isZero : zero.value = .finite 0) : zero.add number = number := by
  apply ext_value
  have kept := roundDouble_of_fits number.fits
  rw [add_value, isZero]
  cases value : number.value with
  | nan =>
      rfl
  | infinite negative =>
      rfl
  | finite q =>
      rw [value] at kept
      rw [Double.add_finite, zero_add]
      exact kept

/-- What is not below a positive number of the format stays positive. -/
theorem isPositive_roundDouble {number : Rounded format} {q total : ℚ}
    (value : number.value = .finite q) (positive : 0 < q)
    (order : q ≤ total) :
    (roundDouble format (.finite total)).IsPositive := by
  rw [roundDouble]
  split
  · exact decide_eq_false (positive.trans_le order).not_gt
  · exact positive.trans_le (le_nearest value order)

theorem isPositive_add {weight weight' : Rounded format}
    (positive : weight.value.IsPositive)
    (positive' : weight'.value.IsPositive) :
    (weight.add weight').value.IsPositive := by
  rw [add_value]
  cases first : weight.value with
  | nan =>
      rw [first] at positive
      exact positive.elim
  | infinite negative =>
      rw [first] at positive
      cases second : weight'.value with
      | nan =>
          rw [second] at positive'
          exact positive'.elim
      | infinite negative' =>
          rw [second] at positive'
          rw [Double.add, if_pos (Eq.trans positive (Eq.symm positive'))]
          exact positive
      | finite q' =>
          exact positive
  | finite q =>
      rw [first] at positive
      cases second : weight'.value with
      | nan =>
          rw [second] at positive'
          exact positive'.elim
      | infinite negative' =>
          rw [second] at positive'
          exact positive'
      | finite q' =>
          rw [second] at positive'
          exact isPositive_roundDouble first positive
            (le_add_of_nonneg_right (le_of_lt positive'))

section Mean

variable {barrier : ℚ} {mean weight mean' weight' : Rounded format}
variable {q q' : ℚ}

theorem add_value_finite (value : weight.value = .finite q)
    (value' : weight'.value = .finite q') (nonneg : 0 ≤ q + q')
    (within : nearest format (q + q') < 2 ^ format.top) :
    (weight.add weight').value = .finite (nearest format (q + q')) := by
  rw [add_value, value, value', Double.add_finite]
  apply roundDouble_finite
  rw [abs_of_nonneg (nearest_nonneg nonneg)]
  exact within

end Mean

end Rounded

attribute [irreducible] roundDouble

end AetherEngine.Floats
