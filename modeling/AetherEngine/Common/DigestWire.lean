import AetherEngine.Common.Quantiles
import AetherEngine.Foundations.Clustering

/-!
# Digests on the wire

A digest is sent as the means and weights of its centroids.  Read back it is
the digest that was sent, and sending it on any number of times changes nothing:
clusters that were made once are apart under every scale function that does not
decrease.

The weights need not be whole: a digest read from the wire has the weights that
stand there.
-/

namespace AetherEngine.Common

open AetherEngine.Clustering
open AetherEngine.Doubles
open AetherEngine.Ranking

namespace TDigest

/-- Send a digest and read it back on the other side. -/
def forward {real : Type} (floats : DigestFloats real)
    (digest : TDigest real) : Option (TDigest real) := do
  let (_, (means, weights)) ← digest.toParts floats
  fromParts floats means weights

/-- Send a digest on, from hop to hop. -/
def hops {real : Type} (floats : DigestFloats real) (digest : TDigest real) :
    Nat → Option (TDigest real)
  | 0 => some digest
  | number + 1 => do
      let arrived ← hops floats digest number
      forward floats arrived

section Exact

variable {K : Type} [Field K] [LinearOrder K]

/-- A digest that the operations build, with the default compression, from
finite numbers. -/
inductive Built (floats : DigestFloats (Double K)) :
    TDigest (Double K) → Prop where
  | new : Built floats (TDigest.new floats)
  | add {digest after : TDigest (Double K)} (sample : Double K)
      (built : Built floats digest)
      (added : digest.add floats sample = some after) : Built floats after
  | merge {digest other after : TDigest (Double K)}
      (built : Built floats digest) (otherBuilt : Built floats other)
      (merged : digest.merge floats other = some after) : Built floats after
  | toParts {digest after : TDigest (Double K)}
      {parts : List (Double K) × List (Double K)}
      (built : Built floats digest)
      (sent : digest.toParts floats = some (after, parts)) :
      Built floats after
  | fromParts {digest : TDigest (Double K)} (means weights : List K)
      (received : TDigest.fromParts floats (means.map .finite)
        (weights.map .finite) = some digest) : Built floats digest

variable [IsStrictOrderedRing K]
variable (scale : K → K → K)

/-! ## Compressing again -/

omit [IsStrictOrderedRing K] in
private theorem reaches_finite (delta : K) {total : K} (nonzero : total ≠ 0)
    (left right : K) :
    reaches scale (.finite delta) total left right =
      decide (scale delta (right / total) - scale delta (left / total) ≤
        1) := by
  have rank : ∀ number : K,
      (exactFloats scale).div (.finite number) (.finite total) =
        .finite (number / total) :=
    fun number => Double.div_finite _ nonzero
  have compared :
      (exactFloats scale).le
          ((exactFloats scale).sub (.finite (scale delta (right / total)))
            (.finite (scale delta (left / total))))
          ((exactFloats scale).ofNat 1) =
        decide (scale delta (right / total) - scale delta (left / total) ≤
          1) := by
    have one : (exactFloats scale).ofNat 1 = .finite (1 : K) :=
      congrArg Double.finite Nat.cast_one
    rw [one, ← Double.le_finite, ← Double.sub_finite]
    rfl
  rw [← compared]
  simp only [reaches, rank]
  rfl

/-- A scale function that runs one way lets a cluster reach less far, too. -/
theorem reaches_shorter {delta : K}
    (steady : Monotone (scale delta) ∨ Antitone (scale delta))
    {total : K} (heavy : 0 < total) {left right right' : K}
    (order : left ≤ right) (order' : right ≤ right')
    (joined : reaches scale (.finite delta) total left right' = true) :
    reaches scale (.finite delta) total left right = true := by
  rw [reaches_finite scale delta heavy.ne', decide_eq_true_eq] at joined ⊢
  rcases steady with up | down
  · have ranks := div_le_div_of_nonneg_right order' heavy.le
    exact (sub_le_sub_right (up ranks) _).trans joined
  · -- against the ranks no difference is positive
    have ranks := div_le_div_of_nonneg_right order heavy.le
    exact (sub_nonpos.mpr (down ranks)).trans zero_le_one

section Join

variable {first second : K × K}

/-- A joint mean lies within the bounds of the two. -/
theorem le_joinFirm {lower : K} (firstPositive : 0 < first.2)
    (secondPositive : 0 < second.2) (below : lower ≤ first.1)
    (alsoBelow : lower ≤ second.1) : lower ≤ (joinFirm first second).1 := by
  rw [joinFirm, le_div_iff₀ (add_pos firstPositive secondPositive), mul_add]
  exact add_le_add (mul_le_mul_of_nonneg_right below firstPositive.le)
    (mul_le_mul_of_nonneg_right alsoBelow secondPositive.le)

private theorem joinFirm_le {upper : K} (firstPositive : 0 < first.2)
    (secondPositive : 0 < second.2) (above : first.1 ≤ upper)
    (alsoAbove : second.1 ≤ upper) : (joinFirm first second).1 ≤ upper := by
  rw [joinFirm, div_le_iff₀ (add_pos firstPositive secondPositive), mul_add]
  exact add_le_add (mul_le_mul_of_nonneg_right above firstPositive.le)
    (mul_le_mul_of_nonneg_right alsoAbove secondPositive.le)

end Join

omit [IsStrictOrderedRing K] in
/-- Clusters that compressing leaves as they are. -/
structure Collected (delta : K) (points : List (K × K)) : Prop where
  positive : ∀ point ∈ points, 0 < point.2
  ascending : points.Pairwise (fun first second => first.1 ≤ second.1)
  apart : Apart Prod.snd
    (reaches scale (.finite delta) (points.map Prod.snd).sum) 0 points

/-- Collecting sorted points leaves such clusters. -/
theorem collected_collect {delta : K}
    (steady : Monotone (scale delta) ∨ Antitone (scale delta))
    {first : K × K} {rest : List (K × K)}
    (positive : ∀ point ∈ first :: rest, 0 < point.2)
    (ascending : (first :: rest).Pairwise
      (fun first second => first.1 ≤ second.1)) :
    Collected scale delta (collect Prod.snd joinFirm
      (reaches scale (.finite delta) ((first :: rest).map Prod.snd).sum) rest
      first 0) where
  positive := forall_mem_collect add_pos 0 positive
  ascending := pairwise_collect (fun point => 0 < point.2) add_pos le_joinFirm
    joinFirm_le 0 positive ascending
  apart := by
    rw [sum_collect _ joinFirm_weight]
    apply apart_collect joinFirm_weight
    · exact reaches_shorter scale steady (sum_weights_pos positive)
    · intro point member
      exact (positive point member).le

theorem compress_collects {delta : K}
    (steady : Monotone (scale delta) ∨ Antitone (scale delta))
    {points : List (K × K)} (positive : ∀ point ∈ points, 0 < point.2)
    (samples : List K) :
    ∃ clusters : List (K × K),
      compress (exactFloats scale) (keeping (.finite delta) points samples) =
        some (keeping (.finite delta) clusters []) ∧
      (clusters.map Prod.snd).sum =
        (points.map Prod.snd).sum + (samples.length : K) ∧
      Collected scale delta clusters := by
  rcases compress_keeping scale (.finite delta) positive samples with
    ⟨rfl, short, same⟩ | ⟨first, rest, sorted, compressed⟩
  · exact ⟨points, same, by simp, positive,
      pairwise_of_length_le_one short _, apart_of_length_le_one short 0⟩
  · have permuted := sortFirm_perm (points ++ units samples)
    have total := (permuted.map Prod.snd).sum_eq
    have ascending := pairwise_sortFirm (points ++ units samples)
    have sortedPositive : ∀ point ∈ sortFirm (points ++ units samples),
        0 < point.2 := fun point member =>
      positive_append_units positive samples point (permuted.subset member)
    rw [List.map_append, List.sum_append, sum_units] at total
    rw [sorted] at total ascending sortedPositive
    have collected := collected_collect scale steady sortedPositive ascending
    rw [total] at collected
    refine ⟨_, compressed, ?_, collected⟩
    rw [sum_collect _ joinFirm_weight, total]

theorem Collected.compress {delta : K} {points : List (K × K)}
    (collected : Collected scale delta points) :
    TDigest.compress (exactFloats scale) (keeping (.finite delta) points []) =
      some (keeping (.finite delta) points []) := by
  rcases compress_keeping scale (.finite delta) collected.positive [] with
    ⟨-, -, same⟩ | ⟨first, rest, sorted, compressed⟩
  · exact same
  · rw [units, List.map_nil, List.append_nil,
      sortFirm_of_pairwise collected.ascending] at sorted
    have apart := collected.apart
    rw [List.length_nil, Nat.cast_zero, add_zero] at compressed
    rw [compressed, sorted]
    rw [sorted] at apart
    rw [collect_of_apart apart]

/-! ## Every digest -/

/-- The digest holds finite points of positive weight, with the default
compression. -/
def Keeps (digest : TDigest (Double K)) : Prop :=
  ∃ (points : List (K × K)) (samples : List K),
    digest = keeping ((exactFloats scale).ofNat 100) points samples ∧
      ∀ point ∈ points, 0 < point.2

/-- Compressing leaves finite points of positive weight. -/
theorem keeps_of_compress {points : List (K × K)} {samples : List K}
    {after : TDigest (Double K)} (positive : ∀ point ∈ points, 0 < point.2)
    (compressed : compress (exactFloats scale)
      (keeping ((exactFloats scale).ofNat 100) points samples) =
        some after) : Keeps scale after := by
  rcases compress_keeping scale _ positive samples with
    ⟨-, -, same⟩ | ⟨first, rest, sorted, collected⟩
  · rw [same, Option.some.injEq] at compressed
    exact ⟨points, samples, compressed.symm, positive⟩
  · rw [collected, Option.some.injEq] at compressed
    refine ⟨_, [], compressed.symm, forall_mem_collect add_pos 0 ?_⟩
    intro point member
    rw [← sorted] at member
    exact positive_append_units positive samples point
      ((sortFirm_perm _).subset member)

/-- Every digest built from finite numbers holds such points. -/
theorem Built.keeps {digest : TDigest (Double K)}
    (built : Built (exactFloats scale) digest) : Keeps scale digest := by
  induction built with
  | new =>
      refine ⟨[], [], ?_, by simp⟩
      simp [TDigest.new, withDelta, keeping, exactFloats]
  | add sample built added inductionHypothesis =>
      obtain ⟨points, samples, rfl, positive⟩ := inductionHypothesis
      cases sample with
      | infinite negative =>
          cases added
          exact ⟨points, samples, rfl, positive⟩
      | nan =>
          cases added
          exact ⟨points, samples, rfl, positive⟩
      | finite value =>
          rw [add_keeping] at added
          split at added
          · exact keeps_of_compress scale positive added
          · cases added
            exact ⟨points, samples ++ [value], rfl, positive⟩
  | merge built otherBuilt merged inductionHypothesis otherHypothesis =>
      obtain ⟨points, samples, rfl, positive⟩ := inductionHypothesis
      obtain ⟨points', samples', rfl, positive'⟩ := otherHypothesis
      rw [merge_keeping] at merged
      refine keeps_of_compress scale ?_ merged
      intro point member
      rcases List.mem_append.mp member with first | second
      · exact positive point first
      · exact positive' point second
  | toParts built sent inductionHypothesis =>
      obtain ⟨points, samples, rfl, positive⟩ := inductionHypothesis
      rw [TDigest.toParts, Option.bind_eq_bind, Option.bind_eq_some_iff] at sent
      obtain ⟨compressed, done, same⟩ := sent
      cases same
      exact keeps_of_compress scale positive done
  | fromParts means weights received =>
      rw [fromParts_firm, Option.some.injEq] at received
      refine ⟨_, [], received.symm, ?_⟩
      intro point member
      have kept := (sortFirm_perm _).subset member
      rw [List.mem_filter, decide_eq_true_eq] at kept
      exact kept.2

omit [IsStrictOrderedRing K] in
/-- Clusters read back from their wire form as they are. -/
theorem Collected.fromParts {delta : K} {points : List (K × K)}
    (collected : Collected scale delta points) :
    TDigest.fromParts (exactFloats scale) ((points.map Prod.fst).map .finite)
        ((points.map Prod.snd).map .finite) =
      some (keeping ((exactFloats scale).ofNat 100) points []) := by
  have heavy : points.filter (fun part => 0 < part.2) = points := by
    rw [List.filter_eq_self]
    intro part member
    exact decide_eq_true (collected.positive part member)
  rw [fromParts_firm, List.zip_map']
  simp only [Prod.mk.eta, List.map_id']
  rw [heavy, sortFirm_of_pairwise collected.ascending]

/-- Clusters arrive as they were sent, over any number of hops. -/
theorem Collected.hops {points : List (K × K)}
    (collected : Collected scale ((100 : Nat) : K) points) (number : Nat) :
    (keeping ((exactFloats scale).ofNat 100) points []).hops
        (exactFloats scale) number =
      some (keeping ((exactFloats scale).ofNat 100) points []) := by
  induction number with
  | zero =>
      rfl
  | succ number inductionHypothesis =>
      have sent := toParts_of_keeping scale (collected.compress scale)
      rw [TDigest.hops, inductionHypothesis, Option.bind_eq_bind,
        Option.bind_some, forward]
      refine (congrArg (fun parts => parts >>= _) sent).trans ?_
      exact collected.fromParts scale

/-- Under a scale function that does not decrease, the wire form of a digest is
stable.  It reads back with the centroids and the count, and so with the
quantiles, of the digest that was sent.  The digest that was sent, the one that
was read back and all that are sent on from it have the same wire form. -/
theorem wire_form_stable (rising : Monotone (scale ((100 : Nat) : K)))
    {digest : TDigest (Double K)} (built : Built (exactFloats scale) digest) :
    ∃ after means weights,
      digest.toParts (exactFloats scale) = some (after, (means, weights)) ∧
      after.toParts (exactFloats scale) = some (after, (means, weights)) ∧
      ∃ restored,
        TDigest.fromParts (exactFloats scale) means weights = some restored ∧
        restored.centroids = after.centroids ∧
        restored.count = after.count ∧ after.count = digest.count ∧
        (∀ q, restored.quantile (exactFloats scale) q =
          after.quantile (exactFloats scale) q) ∧
        ∀ number, ∃ arrived forwarded,
          restored.hops (exactFloats scale) number = some arrived ∧
            arrived.toParts (exactFloats scale) =
              some (forwarded, (means, weights)) := by
  obtain ⟨points, samples, rfl, positive⟩ := built.keeps
  obtain ⟨clusters, compressed, sum, collected⟩ :=
    compress_collects scale (Or.inl rising) positive samples
  have sent := toParts_of_keeping scale compressed
  have again := toParts_of_keeping scale (collected.compress scale)
  refine ⟨_, _, _, sent, again, _, collected.fromParts scale, rfl, rfl, ?_,
    fun q => rfl, fun number => ⟨_, _, collected.hops scale number, again⟩⟩
  rw [keeping, sum, List.length_nil, Nat.cast_zero, add_zero, keeping]

end Exact

/-- A scale that grows with the quantile. -/
def linearScale (delta q : ℚ) : ℚ :=
  delta * q

/-- Two parts, one of half a weight, sent on. -/
theorem wire_form_stable_two_parts :
    ∃ digest after parts,
      TDigest.fromParts (exactFloats linearScale) [.finite 3, .finite 1]
          [.finite (1 / 2), .finite 2] = some digest ∧
        digest.toParts (exactFloats linearScale) = some (after, parts) ∧
        after.toParts (exactFloats linearScale) = some (after, parts) := by
  have received := fromParts_firm linearScale [3, 1] [1 / 2, 2]
  have rising : Monotone (linearScale ((100 : Nat) : ℚ)) :=
    fun _ _ order => mul_le_mul_of_nonneg_left order (Nat.cast_nonneg 100)
  obtain ⟨after, means, weights, sent, again, -⟩ :=
    wire_form_stable linearScale rising (.fromParts [3, 1] [1 / 2, 2] received)
  exact ⟨_, after, (means, weights), received, sent, again⟩

end TDigest

end AetherEngine.Common
