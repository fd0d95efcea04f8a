import AetherEngine.Common.DigestBuffer
import AetherEngine.Common.DigestDoubles
import Mathlib.Data.List.Permutation

/-!
# Queries in 64-bit floating point

A query reads the centroids and leaves the buffer out, so after the first finite
sample it answers with a NaN.  Only a compression so small that every sample
fills the buffer up is free of that: each sample then joins the one centroid
there is.
-/

namespace AetherEngine.Common

open AetherEngine.Doubles
open AetherEngine.Floats
open AetherEngine.Ranking
open AetherEngine.Rounding

namespace TDigest

variable (arcSine : ArcSine)

/-- A single sample fills the buffer up. -/
def FoldsAtOnce (delta : F64) : Prop :=
  (delta.mul (.ofNat binary64 10)).le (.ofNat binary64 1) = true

/-! ## Small compressions -/

theorem FoldsAtOnce.atMost {delta : F64} (folds : FoldsAtOnce delta) :
    delta.value.AtMost 1 := by
  have ten := ofNat_value (by decide : 10 ≤ 2 ^ 53)
  have one := ofNat_value (by decide : 1 ≤ 2 ^ 53)
  rw [FoldsAtOnce, Rounded.le, Rounded.mul_value, ten, one] at folds
  cases value : delta.value with
  | nan =>
      rw [value, Double.nan_mul, roundDouble_nan] at folds
      cases folds
  | infinite negative =>
      cases negative with
      | true =>
          rfl
      | false =>
          rw [value, Double.mul, Double.scaleInfinite, if_neg (by norm_num),
            decide_eq_false (by norm_num), roundDouble_infinite] at folds
          cases folds
  | finite q =>
      rw [value, Double.mul_finite] at folds
      rw [Double.AtMost, ← not_lt]
      intro large
      have most := @nearest_le_nearest binary64 (((10 : ℕ) : ℚ))
        (q * ((10 : ℕ) : ℚ)) (by norm_num; linarith)
      have kept : nearest binary64 ((10 : ℕ) : ℚ) = (10 : ℕ) := by
        apply nearest_natCast binary64_least
        rw [binary64_digits]
        decide
      rw [kept] at most
      have nonneg : ¬ q * ((10 : ℕ) : ℚ) < 0 := by
        norm_num
        linarith
      rcases roundDouble_finite_cases binary64 (q * ((10 : ℕ) : ℚ)) with
        rounded | rounded
      · rw [rounded, decide_eq_false nonneg] at folds
        cases folds
      · rw [rounded, Double.le_finite, decide_eq_true_eq] at folds
        norm_num at folds most
        linarith

/-! ## One centroid -/

/-- A weight that a count may reach. -/
def Counted (weight : F64) : Prop :=
  ∃ q : ℚ, weight.value = .finite q ∧ 0 < q ∧ q ≤ 2 ^ 53

private theorem counted_one : Counted (.ofNat binary64 1) :=
  ⟨1, by rw [ofNat_value (by decide), Nat.cast_one], by norm_num, by norm_num⟩

/-- Counting goes on up to two to the fifty-third and stays there. -/
theorem Counted.add_one {weight : F64} (counted : Counted weight) :
    Counted (weight.add (.ofNat binary64 1)) := by
  obtain ⟨q, value, positive, most⟩ := counted
  have one := ofNat_value (by decide : 1 ≤ 2 ^ 53)
  rw [Nat.cast_one] at one
  have full : nearest binary64 (2 ^ 53 + 1) = 2 ^ 53 := by
    decide +kernel
  have upper := @nearest_le_nearest binary64 (q + 1) (2 ^ 53 + 1)
    (by linarith)
  rw [full] at upper
  have lower := Rounded.le_nearest value (le_add_of_nonneg_right zero_le_one)
  refine ⟨_, Rounded.add_value_finite value one (by linarith) ?_,
    positive.trans_le lower, upper⟩
  refine upper.trans_lt ?_
  rw [binary64_top]
  exact pow_lt_pow_right₀ one_lt_two (by decide)

/-- The mean of a value that is a number and a finite one is a number. -/
theorem weightedMean_ne_nan {mean weight sample unit : F64} {q q' x : ℚ}
    (number : mean.value ≠ .nan) (value : weight.value = .finite q)
    (positive : 0 < q) (finite : sample.value = .finite x)
    (isUnit : unit.value = .finite 1)
    (sum : (weight.add unit).value = .finite q') (positive' : 0 < q') :
    (Rounded.weightedMean mean weight sample unit).value ≠ .nan := by
  have product : (mean.mul weight).value ≠ .nan := by
    rw [Rounded.mul_value, value]
    exact roundDouble_ne_nan (Double.mul_finite_ne_nan number positive.ne')
  have kept : (sample.mul unit).value = .finite x := by
    have stays := roundDouble_of_fits sample.fits
    rw [Rounded.mul_value, finite, isUnit, Double.mul_finite, mul_one, ← finite]
    exact stays
  rw [Rounded.weightedMean, Rounded.div_value, sum]
  apply roundDouble_ne_nan
  apply Double.div_finite_ne_nan _ positive'.ne'
  rw [Rounded.add_value, kept]
  exact roundDouble_ne_nan (Double.add_finite_ne_nan product x)

/-! ### Joining the sample -/

private theorem Counted.share_all {weight : F64} (counted : Counted weight) :
    ((Rounded.ofNat binary64 0).add weight).div weight =
      .ofNat binary64 1 := by
  obtain ⟨q, value, positive, -⟩ := counted
  apply Rounded.ext_value
  rw [Rounded.add_of_zero zero_value, Rounded.div_value, value,
    Double.div_finite _ positive.ne', div_self positive.ne',
    Rounded.ofNat_round, Nat.cast_one]

private theorem Counted.share_none {weight : F64} (counted : Counted weight) :
    (Rounded.ofNat binary64 0).div weight = .ofNat binary64 0 := by
  obtain ⟨q, value, positive, -⟩ := counted
  apply Rounded.ext_value
  rw [Rounded.div_value, value, zero_value, Double.div_finite _ positive.ne',
    zero_div, ← zero_value, roundDouble_of_fits (Rounded.fits _)]

/-- A small compression allows a cluster of everything. -/
theorem FoldsAtOnce.allowed {delta total : F64} (folds : FoldsAtOnce delta)
    (counted : Counted total) :
    Allowed (doubleFloats arcSine) delta total (.ofNat binary64 0) total := by
  change ((scaleK arcSine delta
      (((Rounded.ofNat binary64 0).add total).div total)).sub
        (scaleK arcSine delta ((Rounded.ofNat binary64 0).div total))).le
          (.ofNat binary64 1) = true
  rw [counted.share_all, counted.share_none]
  exact scale_le_one arcSine folds.atMost

private theorem joined_swap (first second : Centroid F64) :
    joined (doubleFloats arcSine) first second =
      joined (doubleFloats arcSine) second first := by
  have products : (first.mean.mul first.weight).add
      (second.mean.mul second.weight) =
        (second.mean.mul second.weight).add (first.mean.mul first.weight) :=
    Rounded.add_swap _ _
  have weights : first.weight.add second.weight =
      second.weight.add first.weight :=
    Rounded.add_swap _ _
  change (⟨((first.mean.mul first.weight).add
        (second.mean.mul second.weight)).div
          (first.weight.add second.weight),
      first.weight.add second.weight⟩ : Centroid F64) = _
  rw [products, weights]
  rfl

/-- Two points with a counted total become one centroid. -/
theorem cluster_pair {delta : F64} (folds : FoldsAtOnce delta)
    {first second : Centroid F64}
    (counted : Counted (first.weight.add second.weight)) :
    totalWeight (doubleFloats arcSine) [first, second] =
        first.weight.add second.weight ∧
      cluster (doubleFloats arcSine) delta
          (first.weight.add second.weight) [second] [] first
          (.ofNat binary64 0) =
        [joined (doubleFloats arcSine) first second] := by
  refine ⟨?_, ?_⟩
  · change ((Rounded.ofNat binary64 0).add first.weight).add
      second.weight = _
    rw [Rounded.add_of_zero zero_value]
  · exact if_pos (folds.allowed arcSine counted)

/-- A centroid and a sample are folded into one centroid. -/
theorem compress_pair {delta : F64} (folds : FoldsAtOnce delta)
    {centroid : Centroid F64} {sample : F64}
    (number : centroid.mean.value ≠ .nan) (finite : sample.isFinite = true)
    (counted : Counted (centroid.weight.add (.ofNat binary64 1)))
    (count : F64) :
    compress (doubleFloats arcSine) ⟨[centroid], [sample], count, delta⟩ =
      some ⟨[joined (doubleFloats arcSine) centroid
          ⟨sample, .ofNat binary64 1⟩], [],
        centroid.weight.add (.ofNat binary64 1), delta⟩ := by
  have sortable : Sortable (doubleFloats arcSine)
      [centroid, ⟨sample, .ofNat binary64 1⟩] := by
    refine Or.inr (List.forall_mem_cons.mpr
      ⟨Double.partialCmp_self_isSome.mpr number, ?_⟩)
    refine List.forall_mem_cons.mpr
      ⟨Double.partialCmp_self_isSome.mpr ?_, List.forall_mem_nil _⟩
    intro none
    rw [Rounded.isFinite, none] at finite
    cases finite
  rw [← sortMeans_isSome_iff] at sortable
  obtain ⟨sorted, finished⟩ := Option.isSome_iff_exists.mp sortable
  have permuted := sortMeans_perm finished
  have nonzero : (doubleFloats arcSine).partialCmp
      (centroid.weight.add (.ofNat binary64 1))
      ((doubleFloats arcSine).ofNat 0) ≠ some .eq := by
    apply (weightLaws_doubleFloats arcSine).ne_zero
    obtain ⟨q, value, positive, -⟩ := counted
    rw [heavy_iff, value]
    exact positive
  rw [compress, if_neg (by simp)]
  change (sortMeans (doubleFloats arcSine)
    [centroid, ⟨sample, .ofNat binary64 1⟩]).bind _ = _
  rw [finished, Option.bind_some]
  rcases List.perm_pair.mp permuted with rfl | rfl
  · obtain ⟨total, clusters⟩ := @cluster_pair arcSine delta folds centroid
      ⟨sample, .ofNat binary64 1⟩ counted
    dsimp only
    rw [total, if_neg nonzero]
    rw [show (doubleFloats arcSine).ofNat 0 = .ofNat binary64 0 from rfl,
      clusters]
  · rw [Rounded.add_swap] at counted nonzero ⊢
    obtain ⟨total, clusters⟩ := @cluster_pair arcSine delta folds
      ⟨sample, .ofNat binary64 1⟩ centroid counted
    dsimp only
    rw [total, if_neg nonzero]
    rw [show (doubleFloats arcSine).ofNat 0 = .ofNat binary64 0 from rfl,
      clusters, joined_swap]

/-- A first sample becomes a centroid. -/
theorem compress_single (delta sample count : F64) :
    compress (doubleFloats arcSine) ⟨[], [sample], count, delta⟩ =
      some ⟨[⟨sample, .ofNat binary64 1⟩], [], .ofNat binary64 1, delta⟩ := by
  have total : totalWeight (doubleFloats arcSine)
      [⟨sample, .ofNat binary64 1⟩] = .ofNat binary64 1 :=
    Rounded.add_of_zero zero_value
  have nonzero : (doubleFloats arcSine).partialCmp (.ofNat binary64 1)
      ((doubleFloats arcSine).ofNat 0) ≠ some .eq := by
    apply (weightLaws_doubleFloats arcSine).ne_zero
    obtain ⟨q, value, positive, -⟩ := counted_one
    rw [heavy_iff, value]
    exact positive
  have sorted : sortMeans (doubleFloats arcSine)
      [⟨sample, .ofNat binary64 1⟩] =
        some [⟨sample, .ofNat binary64 1⟩] :=
    if_pos (Or.inl le_rfl)
  rw [compress, if_neg (by simp)]
  change (sortMeans (doubleFloats arcSine)
    [⟨sample, .ofNat binary64 1⟩]).bind _ = _
  rw [sorted, Option.bind_some, total, if_neg nonzero]
  rfl

/-! ## Runs -/

/-- Nothing finite was added yet, or one centroid holds all samples. -/
structure AllInOne (delta : F64) (digest : TDigest F64)
    (samples : List F64) : Prop where
  sameDelta : digest.delta = delta
  empty : digest.buffer = []
  held :
    ((∀ sample ∈ samples, sample.isFinite = false) ∧
      digest.centroids = [] ∧ digest.count = .ofNat binary64 0) ∨
    ∃ centroid, digest.centroids = [centroid] ∧
      digest.count = centroid.weight ∧ Counted centroid.weight ∧
      centroid.mean.value ≠ .nan

variable {arcSine} in
theorem AllInOne.add {delta : F64} (folds : FoldsAtOnce delta)
    {digest : TDigest F64} {samples : List F64}
    (all : AllInOne delta digest samples) (sample : F64) :
    ∃ after, TDigest.add (doubleFloats arcSine) digest sample =
        some after ∧
      AllInOne delta after (samples ++ [sample]) := by
  obtain ⟨rfl, empty, held⟩ := all
  obtain ⟨centroids, buffer, count, delta⟩ := digest
  cases empty
  rw [TDigest.add]
  by_cases finite : (doubleFloats arcSine).isFinite sample = true
  · rw [if_pos finite]
    have full : (doubleFloats arcSine).le
        ((doubleFloats arcSine).mul delta ((doubleFloats arcSine).ofNat 10))
        ((doubleFloats arcSine).ofNat ([] ++ [sample]).length) = true :=
      folds
    dsimp only
    rw [if_pos full, List.nil_append]
    rcases held with ⟨-, rfl, -⟩ | ⟨centroid, rfl, -, counted, number⟩
    · have isNumber : sample.value ≠ .nan := by
        intro none
        have finiteValue : sample.value.isFinite = true := finite
        rw [none] at finiteValue
        cases finiteValue
      exact ⟨_, compress_single arcSine delta sample _, rfl, rfl,
        Or.inr ⟨_, rfl, rfl, counted_one, isNumber⟩⟩
    · have grown := counted.add_one
      refine ⟨_, compress_pair arcSine folds number finite grown _, rfl, rfl,
        Or.inr ⟨_, rfl, rfl, grown, ?_⟩⟩
      obtain ⟨q, value, positive, -⟩ := counted
      obtain ⟨q', sum, positive', -⟩ := grown
      cases isFinite : sample.value with
      | finite x =>
          have one := ofNat_value (by decide : 1 ≤ 2 ^ 53)
          rw [Nat.cast_one] at one
          exact weightedMean_ne_nan number value positive isFinite one sum
            positive'
      | infinite negative =>
          have finiteValue : sample.value.isFinite = true := finite
          rw [isFinite] at finiteValue
          cases finiteValue
      | nan =>
          have finiteValue : sample.value.isFinite = true := finite
          rw [isFinite] at finiteValue
          cases finiteValue
  · rw [if_neg finite]
    refine ⟨_, rfl, rfl, rfl, ?_⟩
    rcases held with ⟨none, rfl, counted⟩ | more
    · refine Or.inl ⟨List.forall_mem_append.mpr ⟨none, ?_⟩, rfl, counted⟩
      exact List.forall_mem_singleton.mpr (Bool.eq_false_of_not_eq_true finite)
    · exact Or.inr more

variable {arcSine} in
theorem AllInOne.addAll {delta : F64} (folds : FoldsAtOnce delta)
    {digest : TDigest F64} {earlier : List F64}
    (all : AllInOne delta digest earlier) (samples : List F64) :
    ∃ after, TDigest.addAll (doubleFloats arcSine) digest samples =
        some after ∧
      AllInOne delta after (earlier ++ samples) := by
  induction samples generalizing digest earlier with
  | nil =>
      rw [List.append_nil]
      exact ⟨digest, rfl, all⟩
  | cons sample rest inductionHypothesis =>
      obtain ⟨next, added, nextAll⟩ := all.add folds sample
      obtain ⟨after, finished, afterAll⟩ := inductionHypothesis nextAll
      rw [List.append_assoc] at afterAll
      refine ⟨after, ?_, afterAll⟩
      rw [TDigest.addAll, List.foldlM_cons, added]
      exact finished

end TDigest

end AetherEngine.Common
