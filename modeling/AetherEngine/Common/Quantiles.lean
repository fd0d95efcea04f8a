import AetherEngine.Common.TDigest
import AetherEngine.Foundations.Interpolation
import Mathlib.Algebra.Field.Rat
import Mathlib.Algebra.Order.Ring.Rat
import Mathlib.Tactic.Linarith

/-!
# Quantiles of a sketch

A quantile is a rank, and the walk over the centroids interpolates through
their centres on the scale of ranks.  So it does not decrease and stays between
the first and the last mean.
-/

namespace AetherEngine.Common

open AetherEngine.Doubles
open AetherEngine.Interpolation

section Exact

variable {K : Type} [Field K] [LinearOrder K]

/-- Exact arithmetic in which a division by zero may give anything. -/
def dividingFloats (scale : K → K → K) (byZero : Double K → Double K) :
    DigestFloats (Double K) where
  __ := exactFloats scale
  div first second :=
    if second = .finite 0 then byZero first else first.div second

theorem dividingFloats_exact (scale : K → K → K) :
    dividingFloats scale (fun first => first.div (.finite 0)) =
      exactFloats scale := by
  have division :
      (fun first second : Double K =>
        if second = .finite 0 then first.div (.finite 0)
        else first.div second) = Double.div := by
    funext first second
    split
    · rename_i zero
      rw [zero]
    · rfl
  rw [dividingFloats, division]
  rfl

namespace TDigest

omit [LinearOrder K] in
/-- The centres of centroids on the scale of ranks, with their means. -/
def centres (acc : K) : List (K × K) → List (K × K)
  | [] => []
  | point :: rest =>
      (acc + point.2 / 2, point.1) :: centres (acc + point.2) rest

omit [LinearOrder K] in
private theorem map_snd_centres (acc : K) (points : List (K × K)) :
    (centres acc points).map Prod.snd = points.map Prod.fst := by
  induction points generalizing acc with
  | nil =>
      rfl
  | cons point rest inductionHypothesis =>
      rw [centres, List.map_cons, List.map_cons, inductionHypothesis]

/-- A digest with nothing left to fold in: centroids in order, with positive
weights that the count adds up. -/
structure Settled (digest : TDigest (Double K)) (points : List (K × K)) :
    Prop where
  buffer : digest.buffer = []
  centroids : digest.centroids = points.map firm
  ascending : points.Pairwise (fun first second => first.1 ≤ second.1)
  positive : ∀ point ∈ points, 0 < point.2
  count : digest.count = .finite (points.map Prod.snd).sum

omit [LinearOrder K] in
private theorem getLast_centres (acc : K) (first : K × K)
    (rest : List (K × K)) :
    ((centres acc (first :: rest)).getLast (List.cons_ne_nil _ _)).2 =
      ((first :: rest).getLast (List.cons_ne_nil _ _)).1 := by
  induction rest generalizing acc first with
  | nil =>
      rfl
  | cons second rest inductionHypothesis =>
      rw [List.getLast_cons_cons,
        ← inductionHypothesis (acc + first.2) second]
      rfl

variable [IsStrictOrderedRing K]

/-- The centres lie strictly between the ranks before and after. -/
theorem mem_centres {acc : K} {points : List (K × K)}
    (positive : ∀ point ∈ points, 0 < point.2) {knot : K × K}
    (member : knot ∈ centres acc points) :
    acc < knot.1 ∧ knot.1 < acc + (points.map Prod.snd).sum := by
  induction points generalizing acc with
  | nil =>
      cases member
  | cons point rest inductionHypothesis =>
      have half : 0 < point.2 / 2 := half_pos (positive point (by simp))
      have restPositive : ∀ later ∈ rest, 0 < later.2 :=
        fun later among => positive later (by simp [among])
      have restSum := sum_weights_nonneg restPositive
      rw [List.map_cons, List.sum_cons]
      rcases List.mem_cons.mp member with rfl | among
      · exact ⟨by linarith, by linarith [add_halves point.2]⟩
      · obtain ⟨lower, upper⟩ := inductionHypothesis restPositive among
        exact ⟨by linarith, by linarith⟩

private theorem rising_centres (acc : K) {points : List (K × K)}
    (positive : ∀ point ∈ points, 0 < point.2)
    (ascending : points.Pairwise
      (fun first second => first.1 ≤ second.1)) :
    Rising (centres acc points) := by
  induction points generalizing acc with
  | nil =>
      exact List.Pairwise.nil
  | cons point rest inductionHypothesis =>
      obtain ⟨least, tailAscending⟩ := List.pairwise_cons.mp ascending
      have half : 0 < point.2 / 2 := half_pos (positive point (by simp))
      have restPositive : ∀ later ∈ rest, 0 < later.2 :=
        fun later among => positive later (by simp [among])
      refine List.pairwise_cons.mpr
        ⟨?_, inductionHypothesis _ restPositive tailAscending⟩
      intro knot member
      constructor
      · have later := (mem_centres restPositive member).1
        exact lt_trans (by linarith [add_halves point.2]) later
      · have mean : knot.2 ∈ rest.map Prod.fst := by
          rw [← map_snd_centres (acc + point.2)]
          exact List.mem_map_of_mem member
        obtain ⟨later, among, same⟩ := List.mem_map.mp mean
        rw [← same]
        exact least later among

variable (scale : K → K → K) (byZero : Double K → Double K)

omit [IsStrictOrderedRing K] in
private theorem dividingFloats_div (first : K) {second : K}
    (nonzero : second ≠ 0) :
    (dividingFloats scale byZero).div (.finite first) (.finite second) =
      .finite (first / second) := by
  have apart : (Double.finite second : Double K) ≠ .finite 0 :=
    fun same => nonzero (Double.finite.inj same)
  exact (if_neg apart).trans (Double.div_finite first nonzero)

private theorem centre_firm (acc : K) (point : K × K) :
    (dividingFloats scale byZero).add (.finite acc)
        ((dividingFloats scale byZero).div (firm point).weight
          ((dividingFloats scale byZero).ofNat 2)) =
      .finite (acc + point.2 / 2) := by
  have half := dividingFloats_div scale byZero point.2
    (Nat.cast_ne_zero.mpr two_ne_zero : ((2 : Nat) : K) ≠ 0)
  rw [Nat.cast_ofNat] at half
  have two : (dividingFloats scale byZero).ofNat 2 = .finite (2 : K) := by
    rw [← Nat.cast_ofNat]
    rfl
  rw [two, firm, half]
  rfl

/-- Past the first centroid, the walk interpolates through the centres. -/
theorem quantileFrom_firm (target : K) {points : List (K × K)}
    (positive : ∀ point ∈ points, 0 < point.2) {acc : K} {previous : K × K}
    (before : previous.1 < acc) :
    quantileFrom (dividingFloats scale byZero) (.finite target)
        (points.map firm) false (.finite acc) (.finite previous.1)
        (.finite previous.2) =
      .finite (through target previous (centres acc points)) := by
  induction points generalizing acc previous with
  | nil =>
      rfl
  | cons point rest inductionHypothesis =>
      have half : 0 < point.2 / 2 := half_pos (positive point (by simp))
      have compared :
          (dividingFloats scale byZero).le (.finite target)
              (.finite (acc + point.2 / 2)) =
            decide (target ≤ acc + point.2 / 2) :=
        Double.le_finite _ _
      rw [List.map_cons, quantileFrom, centres]
      simp only [centre_firm, compared, decide_eq_true_eq]
      rcases le_or_gt target (acc + point.2 / 2) with reached | passed
      · -- the centre is past the previous one, so the division is defined
        have nonzero : acc + point.2 / 2 - previous.1 ≠ 0 := by
          apply ne_of_gt
          linarith
        rw [if_pos reached, if_neg Bool.false_ne_true,
          through_cons_of_le reached]
        have share :
            (dividingFloats scale byZero).div
                ((dividingFloats scale byZero).sub (.finite target)
                  (.finite previous.1))
                ((dividingFloats scale byZero).sub
                  (.finite (acc + point.2 / 2)) (.finite previous.1)) =
              .finite ((target - previous.1) /
                (acc + point.2 / 2 - previous.1)) := by
          rw [← dividingFloats_div scale byZero _ nonzero,
            ← Double.sub_finite, ← Double.sub_finite]
          rfl
        have rise :
            (dividingFloats scale byZero).sub (firm point).mean
                (.finite previous.2) =
              .finite (point.1 - previous.2) :=
          Double.sub_finite _ _
        rw [share, rise]
        rfl
      · rw [if_neg (not_le.mpr passed), through_cons_of_lt passed]
        have further :
            ((acc + point.2 / 2, point.1) : K × K).1 < acc + point.2 := by
          linarith [add_halves point.2]
        have next := inductionHypothesis
          (fun later member => positive later (by simp [member])) further
        exact next

omit [IsStrictOrderedRing K] in
private theorem dividingFloats_zero :
    (dividingFloats scale byZero).ofNat 0 = .finite 0 :=
  congrArg Double.finite Nat.cast_zero

omit [IsStrictOrderedRing K] in
private theorem dividingFloats_one :
    (dividingFloats scale byZero).ofNat 1 = .finite 1 :=
  congrArg Double.finite Nat.cast_one

private theorem clampUnit_finite (q : K) :
    clampUnit (dividingFloats scale byZero) (.finite q) =
      .finite (max 0 (min 1 q)) := by
  have low : (dividingFloats scale byZero).lt (.finite q) (.finite 0) =
      decide (q < 0) :=
    Double.lt_finite _ _
  have high : (dividingFloats scale byZero).lt (.finite 1) (.finite q) =
      decide (1 < q) :=
    Double.lt_finite _ _
  rw [clampUnit, dividingFloats_zero, dividingFloats_one, low, high]
  simp only [decide_eq_true_eq]
  split
  · rename_i negative
    rw [min_eq_right (negative.le.trans zero_le_one),
      max_eq_left negative.le]
  · rename_i nonnegative
    split
    · rename_i large
      rw [min_eq_left large.le, max_eq_right zero_le_one]
    · rename_i small
      rw [min_eq_right (not_lt.mp small), max_eq_right (not_lt.mp nonnegative)]

/-- A digest of centroids with finite means and weights answers by
interpolation. -/
theorem quantile_firm {digest : TDigest (Double K)} {first : K × K}
    {rest : List (K × K)}
    (centroids : digest.centroids = (first :: rest).map firm)
    (positive : ∀ point ∈ first :: rest, 0 < point.2)
    {q : Double K} {target : K}
    (targeted : (dividingFloats scale byZero).mul
      (clampUnit (dividingFloats scale byZero) q) digest.count =
        .finite target) :
    quantile (dividingFloats scale byZero) digest q =
      .finite (interpolate (0 + first.2 / 2, first.1)
        (centres (0 + first.2) rest) target) := by
  have half : 0 < first.2 / 2 := half_pos (positive first (by simp))
  have compared :
      (dividingFloats scale byZero).le (.finite target)
          (.finite (0 + first.2 / 2)) =
        decide (target ≤ 0 + first.2 / 2) :=
    Double.le_finite _ _
  cases rest with
  | nil =>
      -- a single centroid answers without a target
      rw [quantile, centroids]
      rcases le_or_gt target (0 + first.2 / 2) with reached | passed
      · rw [interpolate_of_le reached]
        rfl
      · rw [interpolate_of_lt passed]
        rfl
  | cons second others =>
      rw [quantile, centroids, List.map_cons, List.map_cons]
      simp only [targeted]
      rw [quantileFrom]
      simp only [dividingFloats_zero, centre_firm, compared,
        decide_eq_true_eq]
      rcases le_or_gt target (0 + first.2 / 2) with reached | passed
      · rw [if_pos reached, if_pos trivial, interpolate_of_le reached]
        rfl
      · rw [if_neg (not_le.mpr passed), interpolate_of_lt passed]
        have further :
            ((0 + first.2 / 2, first.1) : K × K).1 < 0 + first.2 := by
          linarith [add_halves first.2]
        exact quantileFrom_firm scale byZero target
          (fun later member => positive later (List.mem_cons_of_mem _ member))
          further

omit [IsStrictOrderedRing K] in
/-- A target that compares with nothing is past every centre. -/
theorem exists_quantileFrom_nan (points : List (K × K)) (isFirst : Bool)
    (acc prevCenter : Double K) (prevMean : K) :
    ∃ value, quantileFrom (dividingFloats scale byZero) .nan
      (points.map firm) isFirst acc prevCenter (.finite prevMean) =
        .finite value := by
  induction points generalizing isFirst acc prevCenter prevMean with
  | nil =>
      exact ⟨prevMean, rfl⟩
  | cons point rest inductionHypothesis =>
      rw [List.map_cons, quantileFrom]
      exact inductionHypothesis false _ _ point.1

/-- A digest with a centroid answers every query with a number. -/
theorem exists_quantile_finite {digest : TDigest (Double K)} {first : K × K}
    {rest : List (K × K)}
    (centroids : digest.centroids = (first :: rest).map firm)
    (positive : ∀ point ∈ first :: rest, 0 < point.2) {total : K}
    (count : digest.count = .finite total) (q : Double K) :
    ∃ value, quantile (dividingFloats scale byZero) digest q =
      .finite value := by
  have clamped : clampUnit (dividingFloats scale byZero) q = .nan ∨
      ∃ unit, clampUnit (dividingFloats scale byZero) q = .finite unit := by
    cases q with
    | finite value =>
        exact Or.inr ⟨_, clampUnit_finite scale byZero value⟩
    | infinite negative =>
        cases negative with
        | false => exact Or.inr ⟨_, rfl⟩
        | true => exact Or.inr ⟨_, rfl⟩
    | nan =>
        exact Or.inl rfl
  rcases clamped with nowhere | ⟨unit, inside⟩
  · cases rest with
    | nil =>
        rw [quantile, centroids]
        exact ⟨first.1, rfl⟩
    | cons second others =>
        have target : (dividingFloats scale byZero).mul
            (clampUnit (dividingFloats scale byZero) q) digest.count =
              .nan := by
          rw [nowhere]
          rfl
        rw [quantile, centroids, List.map_cons, List.map_cons]
        simp only [target]
        exact exists_quantileFrom_nan scale byZero (first :: second :: others)
          true _ _ first.1
  · have target : (dividingFloats scale byZero).mul
        (clampUnit (dividingFloats scale byZero) q) digest.count =
          .finite (unit * total) := by
      rw [inside, count]
      rfl
    exact ⟨_, quantile_firm scale byZero centroids positive target⟩

section Value

omit [IsStrictOrderedRing K] in
/-- The value at a quantile. -/
def valueAt (first : K × K) (rest : List (K × K)) (q : K) : K :=
  interpolate (0 + first.2 / 2, first.1) (centres (0 + first.2) rest)
    (max 0 (min 1 q) * ((first :: rest).map Prod.snd).sum)

variable {first : K × K} {rest : List (K × K)}
  (positive : ∀ point ∈ first :: rest, 0 < point.2)
  (ascending : (first :: rest).Pairwise
    (fun first second => first.1 ≤ second.1))

include positive

private theorem valueAt_of_le_zero {q : K} (low : q ≤ 0) :
    valueAt first rest q = first.1 := by
  have half : 0 < first.2 / 2 := half_pos (positive first (by simp))
  apply interpolate_of_le
  rw [max_eq_left ((min_le_right 1 q).trans low), zero_mul, zero_add]
  exact half.le

private theorem valueAt_of_one_le {q : K} (high : 1 ≤ q) :
    valueAt first rest q =
      ((first :: rest).getLast (List.cons_ne_nil _ _)).1 := by
  rw [← getLast_centres 0 first rest]
  apply interpolate_of_past
  intro knot member
  have past := (mem_centres positive member).2
  rw [zero_add] at past
  rw [min_eq_left high, max_eq_right zero_le_one, one_mul]
  exact past

include ascending

private theorem valueAt_mono : Monotone (valueAt first rest) := by
  intro q q' order
  apply interpolate_mono (rising_centres 0 positive ascending)
  exact mul_le_mul_of_nonneg_right
    (max_le_max le_rfl (min_le_min le_rfl order))
    (sum_weights_nonneg positive)

private theorem valueAt_mem_bounds (q : K) :
    first.1 ≤ valueAt first rest q ∧
      valueAt first rest q ≤
        ((first :: rest).getLast (List.cons_ne_nil _ _)).1 := by
  rw [← getLast_centres 0 first rest]
  exact interpolate_mem_bounds (rising_centres 0 positive ascending) _

end Value

/-- The answers of a settled digest never divide by zero, do not decrease, and
run from the first mean at zero to the last mean at one. -/
theorem quantile_monotone_bounded {digest : TDigest (Double K)}
    {points : List (K × K)} (settled : digest.Settled points)
    {first last : K × K} (firstIs : points.head? = some first)
    (lastIs : points.getLast? = some last) :
    ∃ value : K → K,
      (∀ (byZero : Double K → Double K) (q : K),
        quantile (dividingFloats scale byZero) digest (.finite q) =
          .finite (value q)) ∧
      (∀ q : K, quantile (exactFloats scale) digest (.finite q) =
        .finite (value q)) ∧
      Monotone value ∧
      (∀ q ≤ 0, value q = first.1) ∧
      (∀ q, 1 ≤ q → value q = last.1) ∧
      ∀ q, first.1 ≤ value q ∧ value q ≤ last.1 := by
  obtain ⟨-, centroids, ascending, positive, count⟩ := settled
  obtain ⟨rest, rfl⟩ := List.head?_eq_some_iff.mp firstIs
  rw [List.getLast?_eq_some_getLast (List.cons_ne_nil _ _)] at lastIs
  obtain rfl := Option.some.inj lastIs
  have answers : ∀ (byZero : Double K → Double K) (q : K),
      quantile (dividingFloats scale byZero) digest (.finite q) =
        .finite (valueAt first rest q) := by
    intro byZero q
    refine quantile_firm scale byZero centroids positive ?_
    rw [clampUnit_finite, count]
    rfl
  refine ⟨valueAt first rest, answers, ?_, valueAt_mono positive ascending,
    fun q => valueAt_of_le_zero positive, fun q => valueAt_of_one_le positive,
    valueAt_mem_bounds positive ascending⟩
  intro q
  rw [← dividingFloats_exact scale]
  exact answers _ q

end TDigest

end Exact

/-- One sample below and two above. -/
def sampleSettled : TDigest (Double ℚ) where
  centroids := [⟨.finite 1, .finite 1⟩, ⟨.finite 3, .finite 2⟩]
  buffer := []
  count := .finite 3
  delta := .finite 100

theorem quantile_monotone_bounded_sampleSettled :
    ∃ value : ℚ → ℚ,
      (∀ q : ℚ, sampleSettled.quantile (exactFloats (fun _ q => q))
        (.finite q) = .finite (value q)) ∧
      Monotone value ∧ value 0 = 1 ∧ value 1 = 3 := by
  have settled : sampleSettled.Settled [(1, 1), (3, 2)] :=
    { buffer := rfl
      centroids := rfl
      ascending := by simp
      positive := by simp
      count := by
        rw [sampleSettled]
        norm_num }
  obtain ⟨value, -, answers, monotone, low, high, -⟩ :=
    TDigest.quantile_monotone_bounded (fun _ q => q) settled rfl rfl
  exact ⟨value, answers, monotone, low 0 le_rfl, high 1 le_rfl⟩

end AetherEngine.Common
