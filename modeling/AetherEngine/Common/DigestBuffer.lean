import AetherEngine.Common.DigestWire
import Mathlib.Algebra.Order.Archimedean.Real.Basic
import Mathlib.Algebra.Order.Floor.Semiring
import Mathlib.Analysis.SpecialFunctions.Trigonometric.Inverse

/-!
# Queries of a digest with a buffer

A quantile is read off the centroids, but the count that its rank is taken from
includes the buffer.  The buffer is folded in only when it is full, so in
exact arithmetic a query sees every sample exactly when the number of samples
fills it up.

Clusters that were made once are apart: compressing again leaves them as they
are, and a digest with an empty buffer answers as it does after serializing.
-/

namespace AetherEngine.Common

open AetherEngine.Doubles
open AetherEngine.Gathering

namespace TDigest

/-- Add samples one by one. -/
def addAll {real : Type} (floats : DigestFloats real) (digest : TDigest real)
    (samples : List real) : Option (TDigest real) :=
  samples.foldlM (add floats) digest

/-- A query sees every sample: folding the buffer in does not change its
answer, the answer is a number once there is a finite sample, and the count it
takes the rank from is the weight of the centroids it walks. -/
structure SeesAll {real : Type} (floats : DigestFloats real)
    (digest : TDigest real) (samples : List real) (q : real) : Prop where
  folded : ∃ after parts, digest.toParts floats = some (after, parts) ∧
    digest.quantile floats q = after.quantile floats q
  number : (∃ sample ∈ samples, floats.isFinite sample = true) →
    (floats.partialCmp (digest.quantile floats q)
      (digest.quantile floats q)).isSome = true
  weight : totalWeight floats digest.centroids = digest.count

section Exact

variable {K : Type} [Field K] [LinearOrder K] [IsStrictOrderedRing K]
variable (scale : K → K → K)

/-! ## Compressing again -/

omit [IsStrictOrderedRing K] in
/-- Clusters that compressing leaves as they are. -/
structure Clustered (delta : K) (points : List (K × Nat)) : Prop where
  positive : ∀ point ∈ points, 0 < point.2
  ascending : Ascending points
  apart : Apart (spans scale (.finite delta) (points.map Prod.snd).sum) 0
    points

omit [Field K] [LinearOrder K] [IsStrictOrderedRing K] in
private theorem firm_injective : Function.Injective (firm (K := K)) := by
  intro first second same
  rw [firm, firm, Centroid.mk.injEq, Double.finite.injEq,
    Double.finite.injEq] at same
  exact Prod.ext same.1 same.2

omit [IsStrictOrderedRing K] in
/-- Points of whole weight are apart if and only if the weighted ones are. -/
theorem apart_map_weigh (delta : Double K) (mass before : Nat)
    (points : List (K × Nat)) :
    Clustering.Apart Prod.snd (reaches scale delta (mass : K)) (before : K)
        (points.map weigh) ↔
      Apart (spans scale delta mass) before points := by
  induction points generalizing before with
  | nil =>
      rfl
  | cons first rest inductionHypothesis =>
      cases rest with
      | nil =>
          rfl
      | cons second rest =>
          have rank : (before : K) + ((weigh first).2 + (weigh second).2) =
              ((before + (first.2 + second.2) : Nat) : K) := by
            rw [Nat.cast_add, Nat.cast_add]
            rfl
          have next : (before : K) + (weigh first).2 =
              ((before + first.2 : Nat) : K) := by
            rw [Nat.cast_add]
            rfl
          have later := inductionHypothesis (before + first.2)
          rw [List.map_cons] at later
          rw [List.map_cons, List.map_cons, Clustering.Apart, Apart, rank,
            next, later]
          rfl

private theorem clustered_iff_collected {delta : K} {points : List (K × Nat)} :
    Clustered scale delta points ↔
      Collected scale delta (points.map weigh) := by
  have apart := apart_map_weigh scale (.finite delta)
    (points.map Prod.snd).sum 0 points
  rw [← sum_weigh, Nat.cast_zero] at apart
  constructor
  · intro clustered
    refine ⟨weigh_positive clustered.positive, ?_,
      apart.mpr clustered.apart⟩
    exact List.pairwise_map.mpr clustered.ascending
  · intro collected
    have ascending := collected.ascending
    rw [List.pairwise_map] at ascending
    refine ⟨?_, ascending, apart.mp collected.apart⟩
    intro point member
    exact Nat.cast_pos.mp
      (collected.positive (weigh point) (List.mem_map_of_mem member))

private theorem compress_clusters {delta : K}
    (steady : Monotone (scale delta) ∨ Antitone (scale delta))
    {points : List (K × Nat)} (positive : ∀ point ∈ points, 0 < point.2)
    (samples : List K) :
    ∃ clusters : List (K × Nat),
      compress (exactFloats scale) (holding (.finite delta) points samples) =
        some (holding (.finite delta) clusters []) ∧
      (clusters.map Prod.snd).sum =
        (points.map Prod.snd).sum + samples.length ∧
      Clustered scale delta clusters := by
  obtain ⟨clusters, compressed, summary, -⟩ :=
    compress_summarizes scale (.finite delta) positive samples
  have mass := summary.weight
  rw [List.map_append, List.sum_append, sum_ones] at mass
  refine ⟨clusters, compressed, mass, ?_⟩
  obtain ⟨weighted, alsoCompressed, -, collected⟩ := compress_collects scale
    steady (weigh_positive positive) samples
  rw [← holding_eq_keeping, compressed, holding_eq_keeping,
    Option.some.injEq] at alsoCompressed
  have same : clusters.map weigh = weighted :=
    List.map_injective_iff.mpr firm_injective
      (congrArg TDigest.centroids alsoCompressed)
  rw [clustered_iff_collected, same]
  exact collected

theorem Clustered.compress {delta : K} {points : List (K × Nat)}
    (clustered : Clustered scale delta points) :
    TDigest.compress (exactFloats scale) (holding (.finite delta) points []) =
      some (holding (.finite delta) points []) := by
  rw [holding_eq_keeping]
  exact ((clustered_iff_collected scale).mp clustered).compress scale

/-! ## The buffer along a run -/

section Flush

variable [FloorSemiring K]

/-- The number of samples at which the buffer is folded in. -/
def flushAt (delta : K) : Nat :=
  max 1 ⌈delta * 10⌉₊

/-- The usual compression buffers a thousand samples. -/
example : flushAt (100 : ℚ) = 1000 := by
  decide +kernel

omit [IsStrictOrderedRing K] in
private theorem flushAt_pos (delta : K) : 0 < flushAt delta :=
  Nat.lt_of_lt_of_le Nat.one_pos (Nat.le_max_left _ _)

omit [IsStrictOrderedRing K] in
private theorem flushAt_le_iff (delta : K) (number : Nat) :
    flushAt delta ≤ number + 1 ↔
      (exactFloats scale).le
        ((exactFloats scale).mul (.finite delta) ((exactFloats scale).ofNat 10))
        ((exactFloats scale).ofNat (number + 1)) = true := by
  have compared :
      (exactFloats scale).le
          ((exactFloats scale).mul (.finite delta)
            ((exactFloats scale).ofNat 10))
          ((exactFloats scale).ofNat (number + 1)) =
        decide (delta * ((10 : Nat) : K) ≤ ((number + 1 : Nat) : K)) :=
    Double.le_finite _ _
  have atLeast : 1 ≤ number + 1 := Nat.le_add_left 1 number
  rw [compared, decide_eq_true_eq, ← Nat.ceil_le, flushAt, Nat.max_le,
    Nat.cast_ofNat]
  exact and_iff_right atLeast

/-- So many samples were added: those that did not fill the buffer up are in
it, the others are clustered. -/
def Buffers (delta : K) (digest : TDigest (Double K)) (number : Nat) : Prop :=
  ∃ (points : List (K × Nat)) (buffered : List K),
    digest = holding (.finite delta) points buffered ∧
    Clustered scale delta points ∧
    (points.map Prod.snd).sum + buffered.length = number ∧
    buffered.length = number % flushAt delta

theorem Buffers.add {delta : K}
    (steady : Monotone (scale delta) ∨ Antitone (scale delta))
    {digest : TDigest (Double K)} {number : Nat}
    (buffers : Buffers scale delta digest number) (sample : K) :
    ∃ after, TDigest.add (exactFloats scale) digest (.finite sample) =
        some after ∧
      Buffers scale delta after (number + 1) := by
  obtain ⟨points, buffered, rfl, clustered, sum, level⟩ := buffers
  have below := Nat.mod_lt number (flushAt_pos delta)
  have next := Nat.mod_add_mod number (flushAt delta) 1
  rw [← level] at below next
  rw [add_holding]
  by_cases full : flushAt delta ≤ buffered.length + 1
  · rw [if_pos ((flushAt_le_iff scale delta _).mp full)]
    obtain ⟨clusters, compressed, mass, clusteredAfter⟩ :=
      compress_clusters scale steady clustered.positive (buffered ++ [sample])
    refine ⟨_, compressed, clusters, [], rfl, clusteredAfter, ?_, ?_⟩
    · rw [mass, List.length_append, ← Nat.add_assoc, sum]
      rfl
    · have filled : buffered.length + 1 = flushAt delta :=
        Nat.le_antisymm below full
      rw [← next, filled, Nat.mod_self]
      rfl
  · rw [if_neg (fun filled => full ((flushAt_le_iff scale delta _).mpr filled))]
    refine ⟨_, rfl, points, buffered ++ [sample], rfl, clustered, ?_, ?_⟩
    · rw [List.length_append, ← Nat.add_assoc, sum]
      rfl
    · rw [← next, Nat.mod_eq_of_lt (Nat.lt_of_not_le full), List.length_append]
      rfl

private theorem buffers_addAll {delta : K}
    (steady : Monotone (scale delta) ∨ Antitone (scale delta))
    {digest : TDigest (Double K)} {number : Nat}
    (buffers : Buffers scale delta digest number) (samples : List K) :
    ∃ after, addAll (exactFloats scale) digest (samples.map .finite) =
        some after ∧
      Buffers scale delta after (number + samples.length) := by
  induction samples generalizing digest number with
  | nil =>
      exact ⟨digest, rfl, buffers⟩
  | cons sample rest inductionHypothesis =>
      obtain ⟨next, added, nextBuffers⟩ := buffers.add scale steady sample
      obtain ⟨after, ran, afterBuffers⟩ := inductionHypothesis nextBuffers
      refine ⟨after, ?_, ?_⟩
      · rw [addAll, List.map_cons, List.foldlM_cons, added]
        exact ran
      · rw [List.length_cons, Nat.add_comm rest.length, ← Nat.add_assoc]
        exact afterBuffers

/-- A query sees every sample exactly when the buffer is empty. -/
theorem seesAll_iff {delta : K} {digest : TDigest (Double K)}
    {samples : List K} (buffers : Buffers scale delta digest samples.length)
    (q : Double K) :
    digest.SeesAll (exactFloats scale) (samples.map .finite) q ↔
      flushAt delta ∣ samples.length := by
  obtain ⟨points, buffered, rfl, clustered, sum, level⟩ := buffers
  rw [Nat.dvd_iff_mod_eq_zero, ← level, List.length_eq_zero_iff]
  constructor
  · intro sees
    have weight : Double.finite (((points.map Prod.snd).sum : Nat) : K) =
        .finite (((points.map Prod.snd).sum + buffered.length : Nat) : K) :=
      (totalWeight_solid scale points).symm.trans sees.weight
    have same := Nat.cast_injective (Double.finite.inj weight)
    exact List.length_eq_zero_iff.mp (Nat.left_eq_add.mp same)
  · intro empty
    subst empty
    refine ⟨⟨_, _, toParts_of_compress scale (clustered.compress scale), rfl⟩,
      ?_, totalWeight_solid scale points⟩
    rintro ⟨sample, member, -⟩
    cases points with
    | nil =>
        rw [List.length_eq_zero_iff.mp sum.symm] at member
        cases member
    | cons first rest =>
        let weighted : K × Nat → K × K := fun point => (point.1, point.2)
        have centroids :
            (holding (.finite delta) (first :: rest) []).centroids =
              (weighted first :: rest.map weighted).map firm := by
          rw [← List.map_cons, List.map_map]
          rfl
        have positive : ∀ point ∈ weighted first :: rest.map weighted,
            0 < point.2 := by
          intro point member
          rw [← List.map_cons] at member
          obtain ⟨cluster, among, rfl⟩ := List.mem_map.mp member
          exact Nat.cast_pos.mpr (clustered.positive cluster among)
        obtain ⟨value, answered⟩ := exists_quantile_finite scale
          (fun first => first.div (.finite 0)) centroids positive rfl q
        rw [dividingFloats_exact] at answered
        rw [answered]
        rfl

end Flush

end Exact

/-! ## The scale function of the digest -/

/-- The arcsine scale, tighter near zero and one. -/
noncomputable def arcsineScale (delta q : ℝ) : ℝ :=
  delta / ((2 : Nat) * Real.pi) *
    Real.arcsin ((2 : Nat) * max 0 (min 1 q) - 1)

/-- The scale runs one way: up, unless the compression is negative. -/
theorem arcsineScale_steady (delta : ℝ) :
    Monotone (arcsineScale delta) ∨ Antitone (arcsineScale delta) := by
  have inner : ∀ {q q' : ℝ}, q ≤ q' →
      Real.arcsin ((2 : Nat) * max 0 (min 1 q) - 1) ≤
        Real.arcsin ((2 : Nat) * max 0 (min 1 q') - 1) := by
    intro q q' order
    have clamped := max_le_max (le_refl (0 : ℝ))
      (min_le_min (le_refl 1) order)
    apply Real.arcsin_le_arcsin
    exact sub_le_sub_right
      (mul_le_mul_of_nonneg_left clamped (Nat.cast_nonneg 2)) 1
  have turn : 0 < ((2 : Nat) : ℝ) * Real.pi :=
    mul_pos (Nat.cast_pos.mpr Nat.two_pos) Real.pi_pos
  rcases le_total 0 delta with upward | downward
  · apply Or.inl
    intro q q' order
    exact mul_le_mul_of_nonneg_left (inner order)
      (div_nonneg upward turn.le)
  · apply Or.inr
    intro q q' order
    exact mul_le_mul_of_nonpos_left (inner order)
      (div_nonpos_of_nonpos_of_nonneg downward turn.le)

/-- In exact arithmetic samples added to a fresh digest are all seen by a query
exactly when their number fills the buffer up. -/
theorem addAll_seesAll_iff (delta : ℝ) (samples : List ℝ) (q : Double ℝ) :
    ∃ digest,
      addAll (exactFloats arcsineScale)
          (withDelta (exactFloats arcsineScale) (.finite delta))
          (samples.map .finite) = some digest ∧
        (digest.SeesAll (exactFloats arcsineScale) (samples.map .finite) q ↔
          max 1 ⌈delta * 10⌉₊ ∣ samples.length) := by
  have start : Buffers arcsineScale delta
      (withDelta (exactFloats arcsineScale) (.finite delta)) 0 :=
    ⟨[], [], rfl, ⟨by simp, List.Pairwise.nil, trivial⟩, rfl,
      (Nat.zero_mod _).symm⟩
  obtain ⟨digest, added, buffers⟩ := buffers_addAll arcsineScale
    (arcsineScale_steady delta) start samples
  rw [Nat.zero_add] at buffers
  exact ⟨digest, added, seesAll_iff arcsineScale buffers q⟩

end TDigest

end AetherEngine.Common
