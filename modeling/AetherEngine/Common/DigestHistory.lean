import AetherEngine.Common.TDigest
import Mathlib.Algebra.Field.Rat
import Mathlib.Algebra.Order.Ring.Rat

/-!
# Digests along any history

A digest comes about by adding samples, by merging and by going over the wire,
in any order and grouping.  Whatever the order, it stands for the samples that
went in: some are summarized by its centroids, the others wait in its buffer.
-/

namespace AetherEngine.Common

open AetherEngine.Doubles
open AetherEngine.Gathering

/-- How a digest came about. -/
inductive DigestHistory (real : Type) where
  | withDelta (delta : real)
  | add (history : DigestHistory real) (sample : real)
  | merge (history other : DigestHistory real)
  /-- Serialized, and used on. -/
  | toParts (history : DigestHistory real)
  /-- Serialized, and read back on the other side. -/
  | fromParts (history : DigestHistory real)

namespace DigestHistory

variable {real : Type} (floats : DigestFloats real)

/-- The digest at the end. -/
def run : DigestHistory real → Option (TDigest real)
  | withDelta delta => some (TDigest.withDelta floats delta)
  | add history sample => do
      let digest ← run history
      digest.add floats sample
  | merge history other => do
      let digest ← run history
      let others ← run other
      digest.merge floats others
  | toParts history => do
      let digest ← run history
      let (after, _) ← digest.toParts floats
      some after
  | fromParts history => do
      let digest ← run history
      let (_, (means, weights)) ← digest.toParts floats
      TDigest.fromParts floats means weights

/-- The samples that went in; only finite ones count. -/
def samples {K : Type} : DigestHistory (Double K) → List K
  | withDelta _ => []
  | add history (.finite value) => samples history ++ [value]
  | add history _ => samples history
  | merge history other => samples history ++ samples other
  | toParts history => samples history
  | fromParts history => samples history

end DigestHistory

section Exact

variable {K : Type} [Field K] [LinearOrder K]

namespace TDigest

/-- Some samples are summarized in order, the others wait in the buffer. -/
def Represents (digest : TDigest (Double K)) (samples : List K) : Prop :=
  ∃ (delta : Double K) (points : List (K × Nat)) (folded buffered : List K),
    digest = holding delta points buffered ∧
    Summarizes points (ones folded) ∧ Ascending points ∧
    (folded ++ buffered).Perm samples

theorem represents_folded (delta : Double K) {points : List (K × Nat)}
    {samples : List K} (summary : Summarizes points (ones samples))
    (ascending : Ascending points) :
    (holding delta points []).Represents samples :=
  ⟨delta, points, samples, [], rfl, summary, ascending, by simp⟩

variable (scale : K → K → K) [IsStrictOrderedRing K]

/-- Compressing folds every sample in, also when the centroids are out of
order. -/
theorem compress_folds (delta : Double K) {points : List (K × Nat)}
    {folded : List K} (summary : Summarizes points (ones folded))
    (buffered : List K) {samples : List K}
    (all : (folded ++ buffered).Perm samples) :
    ∃ clusters : List (K × Nat),
      compress (exactFloats scale) (holding delta points buffered) =
        some (holding delta clusters []) ∧
      Summarizes clusters (ones samples) ∧ Ascending clusters := by
  obtain ⟨clusters, compressed, gathered, ascending⟩ :=
    compress_summarizes scale delta summary.positive buffered
  have held := summary.append (Summarizes.ones_self buffered)
  rw [← ones_append] at held
  exact ⟨clusters, compressed,
    (gathered.trans held).of_perm (all.map _), ascending⟩

theorem Represents.add {digest : TDigest (Double K)} {samples : List K}
    (represents : digest.Represents samples) (value : K) :
    ∃ after, TDigest.add (exactFloats scale) digest (.finite value) =
        some after ∧
      after.Represents (samples ++ [value]) := by
  obtain ⟨delta, points, folded, buffered, rfl, summary, ascending, all⟩ :=
    represents
  have more : (folded ++ (buffered ++ [value])).Perm (samples ++ [value]) := by
    rw [← List.append_assoc]
    exact all.append_right [value]
  rw [add_holding]
  split
  · obtain ⟨clusters, compressed, gathered, sorted⟩ :=
      compress_folds scale delta summary (buffered ++ [value]) more
    exact ⟨_, compressed, represents_folded delta gathered sorted⟩
  · exact ⟨_, rfl, delta, points, folded, buffered ++ [value], rfl, summary,
      ascending, more⟩

theorem Represents.merge {digest other : TDigest (Double K)}
    {samples samples' : List K} (represents : digest.Represents samples)
    (otherRepresents : other.Represents samples') :
    ∃ after, TDigest.merge (exactFloats scale) digest other = some after ∧
      after.Represents (samples ++ samples') := by
  obtain ⟨delta, points, folded, buffered, rfl, summary, -, all⟩ := represents
  obtain ⟨delta', points', folded', buffered', rfl, summary', -, all'⟩ :=
    otherRepresents
  have both := summary.append summary'
  rw [← ones_append] at both
  have together : ((folded ++ folded') ++ (buffered ++ buffered')).Perm
      (samples ++ samples') := by
    refine List.Perm.trans ?_ (all.append all')
    rw [List.append_assoc, List.append_assoc]
    apply List.Perm.append_left
    rw [← List.append_assoc, ← List.append_assoc]
    exact List.perm_append_comm.append_right buffered'
  obtain ⟨clusters, compressed, gathered, ascending⟩ :=
    compress_folds scale delta both (buffered ++ buffered') together
  rw [merge_holding]
  exact ⟨_, compressed, represents_folded delta gathered ascending⟩

/-- The wire form carries every sample, and the digest that sent it stands for
them still. -/
theorem Represents.toParts {digest : TDigest (Double K)} {samples : List K}
    (represents : digest.Represents samples) :
    ∃ (after : TDigest (Double K)) (points : List (K × Nat)),
      TDigest.toParts (exactFloats scale) digest =
        some (after, (points.map (fun point => .finite point.1),
          points.map (fun point => .finite point.2))) ∧
      after.Represents samples ∧ Summarizes points (ones samples) := by
  obtain ⟨delta, points, folded, buffered, rfl, summary, -, all⟩ := represents
  obtain ⟨clusters, compressed, gathered, ascending⟩ :=
    compress_folds scale delta summary buffered all
  exact ⟨_, clusters, toParts_of_compress scale compressed,
    represents_folded delta gathered ascending, gathered⟩

private theorem represents_fromParts
    {points : List (K × Nat)} {samples : List K}
    (summary : Summarizes points (ones samples)) :
    ∃ digest, TDigest.fromParts (exactFloats scale)
        (points.map (fun point => .finite point.1))
        (points.map (fun point => .finite point.2)) = some digest ∧
      digest.Represents samples := by
  have permuted := sortPoints_perm points
  have sorted : Summarizes (sortPoints points) points :=
    (Summarizes.refl (fun point member =>
      summary.positive point (permuted.subset member))).of_perm permuted
  exact ⟨_, fromParts_solid scale summary.positive,
    represents_folded _ (sorted.trans summary) (ascending_sortPoints points)⟩

omit [IsStrictOrderedRing K] in
/-- The digest has lost nothing of the samples: its centroids and its buffer
weigh as much and add up to the same, and its centroids are in order between
the samples. -/
structure Conserves (digest : TDigest (Double K)) (samples : List K)
    (points : List (K × Nat)) (buffered : List K) : Prop where
  centroids : digest.centroids = points.map solid
  buffer : digest.buffer = buffered.map .finite
  count : digest.count = .finite samples.length
  weight : (points.map Prod.snd).sum + buffered.length = samples.length
  moment : moment points + buffered.sum = samples.sum
  positive : ∀ point ∈ points, 0 < point.2
  ascending : Ascending points
  within : ∀ lower upper,
    (∀ sample ∈ samples, lower ≤ sample ∧ sample ≤ upper) →
      ∀ point ∈ points, lower ≤ point.1 ∧ point.1 ≤ upper

omit [IsStrictOrderedRing K] in
theorem Represents.conserves {digest : TDigest (Double K)} {samples : List K}
    (represents : digest.Represents samples) :
    ∃ points buffered, digest.Conserves samples points buffered := by
  obtain ⟨delta, points, folded, buffered, rfl, summary, ascending, all⟩ :=
    represents
  have weight : (points.map Prod.snd).sum + buffered.length =
      samples.length := by
    rw [summary.weight, sum_ones, ← List.length_append, all.length_eq]
  have moments : moment points + buffered.sum = samples.sum := by
    rw [summary.moment, moment_ones, ← List.sum_append, all.sum_eq]
  have old : ∀ point ∈ ones folded, point.1 ∈ samples := by
    intro point member
    obtain ⟨value, among, rfl⟩ := List.mem_map.mp member
    exact all.subset (List.mem_append_left _ among)
  refine ⟨points, buffered, rfl, rfl, ?_, weight, moments, summary.positive,
    ascending, ?_⟩
  · rw [holding, weight]
  · intro lower upper bounded point member
    exact ⟨summary.above lower
        (fun point member => (bounded _ (old point member)).1) point member,
      summary.below upper
        (fun point member => (bounded _ (old point member)).2) point member⟩

end TDigest

namespace DigestHistory

variable (scale : K → K → K) [IsStrictOrderedRing K]

/-- Every history ends in a digest that stands for its samples. -/
theorem represents_run (history : DigestHistory (Double K)) :
    ∃ digest, history.run (exactFloats scale) = some digest ∧
      digest.Represents history.samples := by
  induction history with
  | withDelta delta =>
      exact ⟨_, rfl, TDigest.represents_folded delta
        (Summarizes.ones_self []) List.Pairwise.nil⟩
  | add history sample inductionHypothesis =>
      obtain ⟨digest, ran, represents⟩ := inductionHypothesis
      rw [run, ran]
      cases sample with
      | infinite negative =>
          exact ⟨digest, rfl, represents⟩
      | nan =>
          exact ⟨digest, rfl, represents⟩
      | finite value =>
          exact represents.add scale value
  | merge history other inductionHypothesis otherHypothesis =>
      obtain ⟨digest, ran, represents⟩ := inductionHypothesis
      obtain ⟨others, otherRan, otherRepresents⟩ := otherHypothesis
      rw [run, ran, otherRan]
      exact represents.merge scale otherRepresents
  | toParts history inductionHypothesis =>
      obtain ⟨digest, ran, represents⟩ := inductionHypothesis
      obtain ⟨after, points, sent, afterRepresents, -⟩ :=
        represents.toParts scale
      refine ⟨after, ?_, afterRepresents⟩
      simp only [run, ran, sent, Option.bind_eq_bind, Option.bind_some]
  | fromParts history inductionHypothesis =>
      obtain ⟨digest, ran, represents⟩ := inductionHypothesis
      obtain ⟨after, points, sent, -, summary⟩ := represents.toParts scale
      obtain ⟨received, restored, receivedRepresents⟩ :=
        TDigest.represents_fromParts scale summary
      refine ⟨received, ?_, receivedRepresents⟩
      simp only [run, ran, sent, Option.bind_eq_bind, Option.bind_some,
        restored]

/-- No history panics, and none loses weight, moment, order or bounds. -/
theorem run_conserves (history : DigestHistory (Double K)) :
    ∃ (digest : TDigest (Double K)) (points : List (K × Nat))
        (buffered : List K),
      history.run (exactFloats scale) = some digest ∧
        digest.Conserves history.samples points buffered := by
  obtain ⟨digest, ran, represents⟩ := represents_run scale history
  obtain ⟨points, buffered, conserves⟩ := represents.conserves
  exact ⟨digest, points, buffered, ran, conserves⟩

end DigestHistory

end Exact

/-- A digest of one sample takes in another of two that came over the wire. -/
def sampleHistory : DigestHistory (Double ℚ) :=
  .merge (.add (.withDelta (.finite 100)) (.finite 3))
    (.fromParts (.add (.add (.withDelta (.finite 100)) (.finite 1))
      (.finite 2)))

theorem run_conserves_sampleHistory :
    ∃ digest points buffered,
      sampleHistory.run (exactFloats (fun _ q => q)) = some digest ∧
        digest.Conserves [3, 1, 2] points buffered :=
  DigestHistory.run_conserves (fun _ q => q) sampleHistory

end AetherEngine.Common
