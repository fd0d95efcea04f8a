import AetherEngine.Common.DigestShares
import AetherEngine.Foundations.Floats

/-!
# The sketch in 64-bit floating point

Every operation of the sketch rounds and may overflow.  The arcsine comes from
the platform: of it no more is used than its range and its values at both ends.

Sums of whole weights are exact up to two to the fifty-third.  Means on one
side of zero, or of a power of two, stay there as long as the power times the
weight is in range; an overflow can then only be on the other side, and no mean
turns into a NaN.
-/

namespace AetherEngine.Common

open AetherEngine.Doubles
open AetherEngine.Floats
open AetherEngine.Rounding

/-- Half a turn, as a 64-bit number. -/
def halfTurn : ℚ :=
  884279719003555 / 2 ^ 48

/-- What the platform's arcsine gives between minus one and one. -/
structure ArcSine where
  value : ℚ → ℚ
  range : ∀ q, |value q| ≤ halfTurn / 2
  one : halfTurn / 2 - 1 / 10 ^ 10 ≤ value 1
  minusOne : value (-1) ≤ 1 / 10 ^ 10 - halfTurn / 2

namespace ArcSine

/-- There is no arcsine outside of the range. -/
def asin (arcSine : ArcSine) (number : F64) : F64 :=
  match number.value with
  | .finite q =>
      if -1 ≤ q ∧ q ≤ 1 then .round binary64 (.finite (arcSine.value q))
      else .nan binary64
  | _ => .nan binary64

end ArcSine

/-! ## An arcsine that can be evaluated -/

/-- The scale function of a compression. -/
def scaleK (arcSine : ArcSine) (delta q : F64) : F64 :=
  let two := Rounded.ofNat binary64 2
  let one := Rounded.ofNat binary64 1
  let q := q.clamp (.ofNat binary64 0) one
  (delta.div (two.mul (.round binary64 (.finite halfTurn)))).mul
    (arcSine.asin ((two.mul q).sub one))

/-- The arithmetic of the sketch. -/
def doubleFloats (arcSine : ArcSine) : DigestFloats F64 where
  ofNat := .ofNat binary64
  nan := .nan binary64
  add := .add
  sub := .sub
  mul := .mul
  div := .div
  le := Rounded.le
  lt := Rounded.lt
  partialCmp := Rounded.partialCmp
  isFinite := Rounded.isFinite
  k := scaleK arcSine

namespace TDigest

variable (arcSine : ArcSine)

/-! ## Whole numbers and weights -/

theorem ofNat_value {number : ℕ} (few : number ≤ 2 ^ 53) :
    (Rounded.ofNat binary64 number).value = .finite number := by
  apply Rounded.ofNat_value binary64_least binary64_digits_lt
  rw [binary64_digits]
  exact few

theorem zero_value : (Rounded.ofNat binary64 0).value = .finite 0 := by
  rw [ofNat_value (Nat.zero_le _), Nat.cast_zero]

theorem heavy_iff {weight : F64} :
    Heavy (doubleFloats arcSine) weight ↔ weight.value.IsPositive := by
  rw [← Double.lt_zero_iff, Heavy]
  change (Rounded.ofNat binary64 0).value.lt weight.value = true ↔ _
  rw [zero_value]

theorem weightLaws_doubleFloats : WeightLaws (doubleFloats arcSine) where
  zero_add := by
    intro weight heavy
    rw [heavy_iff] at heavy ⊢
    change ((Rounded.ofNat binary64 0).add weight).value.IsPositive
    rw [Rounded.add_of_zero zero_value]
    exact heavy
  add := by
    intro weight weight' heavy heavy'
    rw [heavy_iff] at heavy heavy' ⊢
    exact Rounded.isPositive_add heavy heavy'
  ne_zero := by
    intro weight heavy
    rw [heavy_iff] at heavy
    have apart := heavy.ne_zero
    rw [← zero_value] at apart
    exact apart

/-! ## The scale at both ends -/

theorem abs_nearest_asin_le (v : ℚ) :
    |nearest binary64 (arcSine.value v)| ≤ 2 := by
  have two : nearest binary64 2 = 2 := nearest_two_pow binary64_least 1
  have range := (arcSine.range v).trans
    (by norm_num [halfTurn] : halfTurn / 2 ≤ 2)
  rw [abs_le] at range ⊢
  have lower := @nearest_le_nearest binary64 _ _ range.1
  have upper := @nearest_le_nearest binary64 _ _ range.2
  rw [nearest_neg, two] at lower
  rw [two] at upper
  exact ⟨lower, upper⟩

private theorem asin_value {number : F64} {v : ℚ}
    (value : number.value = .finite v)
    (low : -1 ≤ v) (high : v ≤ 1) :
    (arcSine.asin number).value =
      .finite (nearest binary64 (arcSine.value v)) := by
  rw [ArcSine.asin, value]
  dsimp only
  rw [if_pos ⟨low, high⟩, Rounded.round_value]
  exact roundDouble_finite
    ((abs_nearest_asin_le arcSine v).trans_lt two_lt_top)

/-- The compression over a whole turn is small for a small compression. -/
theorem atMost_div_turn {delta : F64} (below : delta.value.AtMost 1) :
    (delta.div ((Rounded.ofNat binary64 2).mul
      (.round binary64 (.finite halfTurn)))).value.AtMost (1 / 4) := by
  have turn : ((Rounded.ofNat binary64 2).mul
      (.round binary64 (.finite halfTurn))).value =
        .finite (2 * halfTurn) := by
    decide +kernel
  have quarter : nearest binary64 (1 / 4) = 1 / 4 := by
    decide +kernel
  have share := (below.div_finite (by norm_num [halfTurn] :
    (0 : ℚ) < 2 * halfTurn)).mono
      (by norm_num [halfTurn] : 1 / (2 * halfTurn) ≤ 1 / 4)
  have rounded := atMost_roundDouble share
    (quarter.trans_lt ((by norm_num : (1 / 4 : ℚ) < 2).trans two_lt_top))
  rw [quarter] at rounded
  rw [Rounded.div_value, turn]
  exact rounded

/-- A product under one half stays there when it is rounded. -/
theorem atMost_half_of_mul {first second : F64}
    (below : (first.value.mul second.value).AtMost (1 / 2)) :
    (first.mul second).value.AtMost (1 / 2) := by
  have half : nearest binary64 (1 / 2) = 1 / 2 := by
    decide +kernel
  have rounded := atMost_roundDouble below
    (half.trans_lt ((by norm_num : (1 / 2 : ℚ) < 2).trans two_lt_top))
  rw [half] at rounded
  exact rounded

private theorem scaleK_one {delta : F64} (below : delta.value.AtMost 1) :
    (scaleK arcSine delta (.ofNat binary64 1)).value.AtMost (1 / 2) := by
  have argument : (((Rounded.ofNat binary64 2).mul
      ((Rounded.ofNat binary64 1).clamp (.ofNat binary64 0)
        (.ofNat binary64 1))).sub (.ofNat binary64 1)).value =
        .finite 1 := by
    decide +kernel
  have one : nearest binary64 1 = 1 := nearest_two_pow binary64_least 0
  have lower := @nearest_le_nearest binary64 1 (arcSine.value 1) (by
    have end_ := arcSine.one
    norm_num [halfTurn] at end_ ⊢
    linarith)
  rw [one] at lower
  have upper := (abs_le.mp (abs_nearest_asin_le arcSine 1)).2
  apply atMost_half_of_mul
  rw [asin_value arcSine argument (by norm_num) le_rfl]
  exact ((atMost_div_turn below).mul_finite (zero_lt_one.trans_le lower)).mono
    (by linarith)

private theorem scaleK_zero {delta : F64} (below : delta.value.AtMost 1) :
    (scaleK arcSine delta (.ofNat binary64 0)).value.neg.AtMost (1 / 2) := by
  have argument : (((Rounded.ofNat binary64 2).mul
      ((Rounded.ofNat binary64 0).clamp (.ofNat binary64 0)
        (.ofNat binary64 1))).sub (.ofNat binary64 1)).value =
        .finite (-1) := by
    decide +kernel
  have one : nearest binary64 1 = 1 := nearest_two_pow binary64_least 0
  have upper := @nearest_le_nearest binary64 (arcSine.value (-1)) (-1) (by
    have end_ := arcSine.minusOne
    norm_num [halfTurn] at end_ ⊢
    linarith)
  rw [nearest_neg, one] at upper
  have lower := (abs_le.mp (abs_nearest_asin_le arcSine (-1))).1
  have negative : nearest binary64 (arcSine.value (-1)) < 0 := by linarith
  have bound : 1 / 4 * -nearest binary64 (arcSine.value (-1)) ≤ 1 / 2 := by
    linarith
  have product :=
    ((atMost_div_turn below).mul_finite (neg_pos.mpr negative)).mono bound
  rw [← Double.mul_finite_neg _ negative.ne] at product
  have half : nearest binary64 (1 / 2) = 1 / 2 := by
    decide +kernel
  have rounded := atMost_roundDouble product
    (half.trans_lt ((by norm_num : (1 / 2 : ℚ) < 2).trans two_lt_top))
  rw [half, roundDouble_neg] at rounded
  rw [scaleK, Rounded.mul_value,
    asin_value arcSine argument le_rfl (by norm_num)]
  exact rounded

/-- With a small compression one cluster may hold everything. -/
theorem scale_le_one {delta : F64} (below : delta.value.AtMost 1) :
    ((scaleK arcSine delta (.ofNat binary64 1)).sub
      (scaleK arcSine delta (.ofNat binary64 0))).le (.ofNat binary64 1) =
        true := by
  have one : nearest binary64 1 = 1 := nearest_two_pow binary64_least 0
  have difference := ((scaleK_one arcSine below).add
    (scaleK_zero arcSine below)).mono (by norm_num : (1 / 2 + 1 / 2 : ℚ) ≤ 1)
  have rounded := atMost_roundDouble difference
    (one.trans_lt (one_lt_two.trans two_lt_top))
  rw [one] at rounded
  have unit := ofNat_value (Nat.one_le_two_pow : 1 ≤ 2 ^ 53)
  rw [Nat.cast_one] at unit
  rw [Rounded.le, unit]
  exact Double.le_of_atMost rounded

/-! ## Clusters on one side -/

theorem partialCmp_self_isSome {negative : Bool} {bound : ℚ} {number : F64}
    (within : number.value.Within negative bound) :
    ((doubleFloats arcSine).partialCmp number number).isSome = true :=
  Double.partialCmp_self_isSome.mpr within.ne_nan

/-- On one side of a barrier, with an infinite weight or one of no more than so
many units. -/
structure Ranged (negative : Bool) (barrier : ℚ) (unit : ℤ) (share : ℕ)
    (point : Centroid F64) : Prop where
  within : point.mean.value.Within negative barrier
  weight : point.weight.value = .infinite false ∨
    ∃ q, point.weight.value = .finite q ∧ 0 < q ∧ q ≤ share * 2 ^ unit

theorem Ranged.isPositive {negative : Bool} {barrier : ℚ} {unit : ℤ}
    {share : ℕ} {point : Centroid F64}
    (ranged : Ranged negative barrier unit share point) :
    point.weight.value.IsPositive := by
  obtain infinite | ⟨q, value, positive, -⟩ := ranged.weight
  · rw [infinite]
    rfl
  · rw [value]
    exact positive

end TDigest

end AetherEngine.Common
