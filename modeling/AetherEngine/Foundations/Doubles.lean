import Mathlib.Algebra.Order.Field.Basic

/-!
# Doubles with exact finite arithmetic

Floating-point numbers as their special values and their finite values, the
finite ones taken from an ordered field so that nothing is rounded and nothing
overflows.  Comparison is a partial order: `nan` compares with nothing.  There
is one zero.
-/

namespace AetherEngine.Doubles

universe u

inductive Double (K : Type u) where
  | finite (value : K)
  | infinite (negative : Bool)
  | nan
deriving DecidableEq, Repr

namespace Double

variable {K : Type u}

instance instInhabited : Inhabited (Double K) :=
  ⟨nan⟩

def isFinite : Double K → Bool
  | finite _ => true
  | _ => false

section Arithmetic

variable [Field K] [LinearOrder K]

def neg : Double K → Double K
  | finite value => finite (-value)
  | infinite negative => infinite (!negative)
  | nan => nan

def add : Double K → Double K → Double K
  | finite first, finite second => finite (first + second)
  | finite _, infinite negative => infinite negative
  | infinite negative, finite _ => infinite negative
  | infinite first, infinite second =>
      if first = second then infinite first else nan
  | _, _ => nan

def sub (first second : Double K) : Double K :=
  first.add second.neg

/-- An infinity times a finite value; zero has no sign to give. -/
def scaleInfinite (negative : Bool) (value : K) : Double K :=
  if value = 0 then nan
  else infinite (negative ^^ decide (value < 0))

def mul : Double K → Double K → Double K
  | finite first, finite second => finite (first * second)
  | finite value, infinite negative => scaleInfinite negative value
  | infinite negative, finite value => scaleInfinite negative value
  | infinite first, infinite second => infinite (first ^^ second)
  | _, _ => nan

def div : Double K → Double K → Double K
  | finite first, finite second =>
      if second = 0 then scaleInfinite false first
      else finite (first / second)
  | finite _, infinite _ => finite 0
  | infinite negative, finite value =>
      infinite (negative ^^ decide (value < 0))
  | _, _ => nan

def partialCmp : Double K → Double K → Option Ordering
  | finite first, finite second => some (compare first second)
  | finite _, infinite negative => some (if negative then .gt else .lt)
  | infinite negative, finite _ => some (if negative then .lt else .gt)
  | infinite first, infinite second => some (compare second first)
  | _, _ => none

def le (first second : Double K) : Bool :=
  (first.partialCmp second).any Ordering.isLE

def lt (first second : Double K) : Bool :=
  first.partialCmp second = some .lt

omit [LinearOrder K] in
@[simp]
theorem add_finite (first second : K) :
    (finite first).add (finite second) = finite (first + second) :=
  rfl

omit [LinearOrder K] in
theorem sub_finite (first second : K) :
    (finite first).sub (finite second) = finite (first - second) := by
  rw [sub, neg, add_finite, sub_eq_add_neg]

@[simp]
theorem mul_finite (first second : K) :
    (finite first).mul (finite second) = finite (first * second) :=
  rfl

theorem div_finite (first : K) {second : K} (nonzero : second ≠ 0) :
    (finite first).div (finite second) = finite (first / second) :=
  if_neg nonzero

omit [Field K] in
@[simp]
theorem partialCmp_finite (first second : K) :
    (finite first).partialCmp (finite second) =
      some (compare first second) :=
  rfl

omit [Field K] in
theorem lt_finite (first second : K) :
    (finite first).lt (finite second) = decide (first < second) := by
  rw [lt, partialCmp_finite]
  simp [compare_lt_iff_lt]

omit [Field K] in
theorem le_finite (first second : K) :
    (finite first).le (finite second) = decide (first ≤ second) := by
  rw [le, partialCmp_finite, Option.any_some, Bool.eq_iff_iff,
    decide_eq_true_eq, ← Ordering.ne_gt_iff_isLE]
  exact compare_le_iff_le

/-! ### Positive values -/

omit [Field K] in
theorem partialCmp_self_isSome {value : Double K} :
    (value.partialCmp value).isSome = true ↔ value ≠ nan := by
  cases value with
  | finite number =>
      exact iff_of_true rfl nofun
  | infinite negative =>
      exact iff_of_true rfl nofun
  | nan =>
      exact iff_of_false nofun (fun other => other rfl)

/-- Above zero. -/
def IsPositive : Double K → Prop
  | finite value => 0 < value
  | infinite negative => negative = false
  | nan => False

theorem lt_zero_iff {value : Double K} :
    (finite 0).lt value = true ↔ value.IsPositive := by
  cases value with
  | finite number =>
      rw [lt_finite, decide_eq_true_eq]
      rfl
  | infinite negative =>
      cases negative with
      | false =>
          exact iff_of_true rfl rfl
      | true =>
          exact iff_of_false Bool.false_ne_true Bool.noConfusion
  | nan =>
      exact iff_of_false Bool.false_ne_true id

theorem IsPositive.ne_zero {value : Double K} (positive : value.IsPositive) :
    value.partialCmp (finite 0) ≠ some .eq := by
  cases value with
  | finite number =>
      rw [partialCmp_finite, Ne, Option.some_inj, compare_eq_iff_eq]
      exact ne_of_gt positive
  | infinite negative =>
      cases negative with
      | false => nofun
      | true => nofun
  | nan =>
      nofun

/-! ### Values below a bound -/

omit [Field K] in
/-- Not above a bound, and perhaps infinitely far below. -/
def AtMost (bound : K) : Double K → Prop
  | finite value => value ≤ bound
  | infinite negative => negative = true
  | nan => False

omit [Field K] in
theorem AtMost.ne_nan {value : Double K} {bound : K}
    (below : value.AtMost bound) : value ≠ nan := by
  rintro rfl
  exact below

omit [Field K] in
theorem AtMost.mono {value : Double K} {bound bound' : K}
    (below : value.AtMost bound) (order : bound ≤ bound') :
    value.AtMost bound' := by
  cases value with
  | finite number => exact le_trans below order
  | infinite negative => exact below
  | nan => exact below

omit [LinearOrder K] in
theorem add_swap (first second : Double K) :
    first.add second = second.add first := by
  cases first with
  | finite value =>
      cases second with
      | finite value' => exact congrArg finite (add_comm value value')
      | infinite negative' => rfl
      | nan => rfl
  | infinite negative =>
      cases second with
      | finite value' => rfl
      | infinite negative' =>
          rw [add, add]
          by_cases same : negative = negative'
          · rw [if_pos same, if_pos same.symm, same]
          · rw [if_neg same, if_neg (Ne.symm same)]
      | nan => rfl
  | nan =>
      cases second with
      | finite value' => rfl
      | infinite negative' => rfl
      | nan => rfl

theorem nan_mul (value : Double K) : nan.mul value = nan := by
  cases value with
  | finite number => rfl
  | infinite negative => rfl
  | nan => rfl

theorem mul_finite_ne_nan {value : Double K} (number : value ≠ nan) {factor : K}
    (nonzero : factor ≠ 0) : value.mul (finite factor) ≠ nan := by
  cases value with
  | finite other =>
      nofun
  | infinite negative =>
      rw [mul, scaleInfinite, if_neg nonzero]
      nofun
  | nan =>
      exact absurd rfl number

omit [LinearOrder K] in
theorem add_finite_ne_nan {value : Double K} (number : value ≠ nan)
    (other : K) : value.add (finite other) ≠ nan := by
  cases value with
  | finite first => nofun
  | infinite negative => nofun
  | nan => exact absurd rfl number

theorem div_finite_ne_nan {value : Double K} (number : value ≠ nan)
    {divisor : K} (nonzero : divisor ≠ 0) :
    value.div (finite divisor) ≠ nan := by
  cases value with
  | finite other =>
      rw [div_finite _ nonzero]
      nofun
  | infinite negative =>
      nofun
  | nan =>
      exact absurd rfl number

omit [Field K] in
theorem le_of_atMost {value : Double K} {bound : K}
    (below : value.AtMost bound) : value.le (finite bound) = true := by
  cases value with
  | finite number =>
      rw [le_finite]
      exact decide_eq_true below
  | infinite negative =>
      rw [show negative = true from below]
      rfl
  | nan =>
      exact below.elim

theorem mul_finite_neg [IsStrictOrderedRing K] (value : Double K) {factor : K}
    (nonzero : factor ≠ 0) :
    (value.mul (finite factor)).neg = value.mul (finite (-factor)) := by
  cases value with
  | finite number =>
      exact congrArg finite (mul_neg number factor).symm
  | infinite negative =>
      rw [mul, mul, scaleInfinite, scaleInfinite, if_neg nonzero,
        if_neg (neg_ne_zero.mpr nonzero), neg]
      congr 1
      rcases nonzero.lt_or_gt with below | above
      · simp [below, below.not_gt]
      · simp [above, above.not_gt]
  | nan =>
      rfl

/-- On one side of zero a bound, on the other anything but a NaN. -/
def Within (negative : Bool) (bound : K) (value : Double K) : Prop :=
  (if negative then value.neg else value).AtMost bound

theorem Within.ne_nan {negative : Bool} {bound : K} {value : Double K}
    (within : value.Within negative bound) : value ≠ nan := by
  rintro rfl
  cases negative with
  | false => exact within
  | true => exact within

variable [IsStrictOrderedRing K]

theorem AtMost.add {first second : Double K} {bound bound' : K}
    (below : first.AtMost bound) (below' : second.AtMost bound') :
    (first.add second).AtMost (bound + bound') := by
  cases first with
  | nan =>
      exact below.elim
  | finite value =>
      cases second with
      | nan => exact below'.elim
      | finite value' => exact add_le_add below below'
      | infinite negative' => exact below'
  | infinite negative =>
      cases second with
      | nan => exact below'.elim
      | finite value' => exact below
      | infinite negative' =>
          have same : negative = negative' := Eq.trans below (Eq.symm below')
          rw [Double.add, if_pos same]
          exact below

theorem AtMost.mul_finite {value : Double K} {bound factor : K}
    (below : value.AtMost bound) (positive : 0 < factor) :
    (value.mul (finite factor)).AtMost (bound * factor) := by
  cases value with
  | nan =>
      exact below.elim
  | finite number =>
      exact mul_le_mul_of_nonneg_right below positive.le
  | infinite negative =>
      rw [mul, scaleInfinite, if_neg positive.ne',
        decide_eq_false positive.not_gt, Bool.xor_false]
      exact below

theorem AtMost.div_finite {value : Double K} {bound divisor : K}
    (below : value.AtMost bound) (positive : 0 < divisor) :
    (value.div (finite divisor)).AtMost (bound / divisor) := by
  cases value with
  | nan =>
      exact below.elim
  | finite number =>
      rw [Double.div_finite number positive.ne']
      exact div_le_div_of_nonneg_right below positive.le
  | infinite negative =>
      rw [div, decide_eq_false positive.not_gt, Bool.xor_false]
      exact below

theorem IsPositive.add {first second : Double K}
    (positive : first.IsPositive) (positive' : second.IsPositive) :
    (first.add second).IsPositive := by
  cases first with
  | nan =>
      exact positive.elim
  | finite value =>
      cases second with
      | nan => exact positive'.elim
      | finite value' => exact add_pos positive positive'
      | infinite negative => exact positive'
  | infinite negative =>
      cases second with
      | nan => exact positive'.elim
      | finite value' => exact positive
      | infinite negative' =>
          have same : negative = negative' := positive.trans positive'.symm
          rw [Double.add, if_pos same]
          exact positive

end Arithmetic

end Double

end AetherEngine.Doubles
