import AetherEngine.Common.TDigest

/-!
# When sorting by mean gets through

Every step of the sketch that can panic is a sort by mean.  A sort of at most
one centroid compares nothing; any other meets every mean.

Nothing is assumed of the arithmetic, except at the end that positive weights
have a positive sum.
-/

namespace AetherEngine.Common

open AetherEngine.Ranking

namespace TDigest

section Sorting

variable {real : Type} (floats : DigestFloats real)

/-- Sorting these by mean does not panic. -/
def Sortable (points : List (Centroid real)) : Prop :=
  points.length ≤ 1 ∨
    ∀ point ∈ points, (floats.partialCmp point.mean point.mean).isSome = true

/-- The parts of the wire form that have a positive weight. -/
def heavyParts (means weights : List real) : List (Centroid real) :=
  ((means.zip weights).filter (fun part =>
    floats.lt (floats.ofNat 0) part.2)).map (fun part => ⟨part.1, part.2⟩)

/-- The parts of positive weight become centroids, in their order. -/
theorem foldl_pushPart_heavy (parts : List (real × real))
    (digest : TDigest real) :
    (parts.foldl (pushPart floats) digest).centroids =
        digest.centroids ++ (parts.filter (fun part =>
          floats.lt (floats.ofNat 0) part.2)).map
            (fun part => ⟨part.1, part.2⟩) ∧
      (parts.foldl (pushPart floats) digest).buffer = digest.buffer := by
  induction parts generalizing digest with
  | nil =>
      exact ⟨(List.append_nil _).symm, rfl⟩
  | cons part rest inductionHypothesis =>
      rw [List.foldl_cons, pushPart]
      split
      · next heavy =>
          obtain ⟨centroids, buffer⟩ := inductionHypothesis
            { digest with
              centroids := digest.centroids ++ [⟨part.1, part.2⟩]
              count := floats.add digest.count part.2 }
          rw [List.filter_cons_of_pos (by exact heavy), List.map_cons]
          refine ⟨?_, buffer⟩
          rw [centroids, List.append_assoc, List.singleton_append]
      · next light =>
          rw [List.filter_cons_of_neg (by exact light)]
          exact inductionHypothesis digest

/-- Reading the wire form sorts its parts of positive weight. -/
theorem fromParts_eq (means weights : List real) :
    ∃ received : TDigest real, received.buffer = [] ∧
      fromParts floats means weights =
        (sortMeans floats (heavyParts floats means weights)).map
          (fun sorted => { received with centroids := sorted }) := by
  obtain ⟨centroids, buffer⟩ :=
    foldl_pushPart_heavy floats (means.zip weights) (new floats)
  refine ⟨_, buffer, ?_⟩
  rw [fromParts, centroids, Option.map_eq_bind]
  rfl

variable {floats}

theorem sortable_perm {points points' : List (Centroid real)}
    (permuted : points.Perm points') :
    Sortable floats points ↔ Sortable floats points' := by
  rw [Sortable, Sortable, permuted.length_eq]
  simp only [permuted.mem_iff]

theorem sortMeans_isSome_iff (points : List (Centroid real)) :
    (sortMeans floats points).isSome ↔ Sortable floats points := by
  rw [sortMeans, Sortable, ← List.all_eq_true]
  split
  · next sorted =>
      exact iff_of_true rfl sorted
  · next stuck =>
      exact iff_of_false Bool.false_ne_true stuck

theorem sortMeans_perm {points sorted : List (Centroid real)}
    (finished : sortMeans floats points = some sorted) :
    sorted.Perm points := by
  rw [sortMeans, Option.ite_none_right_eq_some] at finished
  obtain ⟨-, same⟩ := finished
  rw [← Option.some_inj.mp same]
  exact sortBy_perm _ points

/-- What compressing centroids without a buffer comes to. -/
theorem compress_cases {digest after : TDigest real}
    (empty : digest.buffer = [])
    (compressed : compress floats digest = some after) :
    after.buffer = [] ∧
    ((digest.centroids.length ≤ 1 ∧ after.centroids = digest.centroids) ∨
      ∃ (first : Centroid real) (rest : List (Centroid real)),
        (first :: rest).Perm digest.centroids ∧
        1 < digest.centroids.length ∧
        if floats.partialCmp (totalWeight floats (first :: rest))
            (floats.ofNat 0) = some .eq then
          after.centroids = []
        else
          after.centroids = cluster floats digest.delta
            (totalWeight floats (first :: rest)) rest [] first
            (floats.ofNat 0)) := by
  rw [compress, empty, List.map_nil, List.append_nil] at compressed
  split at compressed
  · next short =>
      rw [← Option.some_inj.mp compressed]
      exact ⟨empty, Or.inl ⟨by simpa using short, rfl⟩⟩
  · next long =>
      obtain ⟨points, sorted, clustered⟩ :=
        Option.bind_eq_some_iff.mp compressed
      have permuted := sortMeans_perm sorted
      have several : 1 < digest.centroids.length := by simpa using long
      cases points with
      | nil =>
          rw [← permuted.length_eq] at several
          exact absurd several (by simp)
      | cons first rest =>
          dsimp only at clustered
          split at clustered
          · next weightless =>
              rw [← Option.some_inj.mp clustered]
              refine ⟨rfl, Or.inr ⟨first, rest, permuted, several, ?_⟩⟩
              rw [if_pos weightless]
          · next weighty =>
              rw [← Option.some_inj.mp clustered]
              refine ⟨rfl, Or.inr ⟨first, rest, permuted, several, ?_⟩⟩
              rw [if_neg weighty]

theorem fromParts_cases {means weights : List real} {digest : TDigest real}
    (restored : fromParts floats means weights = some digest) :
    digest.centroids.Perm (heavyParts floats means weights) ∧
      digest.buffer = [] := by
  obtain ⟨received, buffer, same⟩ := fromParts_eq floats means weights
  rw [same, Option.map_eq_some_iff] at restored
  obtain ⟨sorted, finished, rfl⟩ := restored
  exact ⟨sortMeans_perm finished, buffer⟩

/-! ### Clusters -/

variable (floats) in
/-- The centroid that stands for two. -/
def joined (cur point : Centroid real) : Centroid real :=
  ⟨floats.div
      (floats.add (floats.mul cur.mean cur.weight)
        (floats.mul point.mean point.weight))
      (floats.add cur.weight point.weight),
    floats.add cur.weight point.weight⟩

variable (floats) in
/-- The bound lets a cluster of such a weight follow on such a rank. -/
def Allowed (delta total cum weight : real) : Prop :=
  floats.le
    (floats.sub
      (floats.k delta (floats.div (floats.add cum weight) total))
      (floats.k delta (floats.div cum total)))
    (floats.ofNat 1) = true

/-- One more point joins the cluster or closes it. -/
theorem cluster_cons_cases (delta total : real)
    (rest merged : List (Centroid real)) (cur point : Centroid real)
    (cum : real) :
    (Allowed floats delta total cum (floats.add cur.weight point.weight) ∧
      cluster floats delta total (point :: rest) merged cur cum =
        cluster floats delta total rest merged (joined floats cur point)
          cum) ∨
    cluster floats delta total (point :: rest) merged cur cum =
      cluster floats delta total rest (merged ++ [cur]) point
        (floats.add cum cur.weight) := by
  rw [cluster]
  dsimp only
  split
  · next allowed =>
      exact Or.inl ⟨allowed, rfl⟩
  · exact Or.inr rfl

/-- What holds of the points and of every join that the bound allows holds of
the clusters. -/
theorem forall_mem_cluster (good : Centroid real → Prop) {delta total : real}
    (joins : ∀ (cur point : Centroid real) (cum : real),
      good cur → good point →
      Allowed floats delta total cum (floats.add cur.weight point.weight) →
      good (joined floats cur point))
    {rest : List (Centroid real)} {cur : Centroid real}
    (goodRest : ∀ point ∈ cur :: rest, good point)
    (merged : List (Centroid real))
    (goodMerged : ∀ point ∈ merged, good point) (cum : real) :
    ∀ point ∈ cluster floats delta total rest merged cur cum,
      good point := by
  induction rest generalizing cur merged cum with
  | nil =>
      intro point member
      rcases List.mem_append.mp member with old | last
      · exact goodMerged point old
      · exact goodRest point last
  | cons next rest inductionHypothesis =>
      obtain ⟨goodCur, goodNext, goodLater⟩ : good cur ∧ good next ∧
          ∀ point ∈ rest, good point := by
        simpa only [List.forall_mem_cons] using goodRest
      rcases cluster_cons_cases delta total rest merged cur next cum with
        ⟨allowed, same⟩ | same
      · rw [same]
        have goodJoin := joins cur next cum goodCur goodNext allowed
        exact inductionHypothesis
          (List.forall_mem_cons.mpr ⟨goodJoin, goodLater⟩) merged
          goodMerged cum
      · rw [same]
        apply inductionHypothesis
          (List.forall_mem_cons.mpr ⟨goodNext, goodLater⟩)
        intro point member
        rcases List.mem_append.mp member with old | last
        · exact goodMerged point old
        · rw [List.mem_singleton.mp last]
          exact goodCur

private theorem cluster_ne_nil (delta total : real)
    (rest merged : List (Centroid real)) (cur : Centroid real)
    (cum : real) :
    cluster floats delta total rest merged cur cum ≠ [] := by
  induction rest generalizing cur merged cum with
  | nil =>
      exact List.append_ne_nil_of_right_ne_nil merged (List.cons_ne_nil cur [])
  | cons next rest inductionHypothesis =>
      rcases cluster_cons_cases delta total rest merged cur next cum with
        ⟨-, same⟩ | same
      · rw [same]
        exact inductionHypothesis _ _ _
      · rw [same]
        exact inductionHypothesis _ _ _

/-! ### Weights -/

variable (floats) in
/-- A positive weight. -/
def Heavy (weight : real) : Prop :=
  floats.lt (floats.ofNat 0) weight = true

variable (floats) in
/-- Positive weights have positive sums, and what is positive is not nothing. -/
structure WeightLaws : Prop where
  zero_add : ∀ {weight}, Heavy floats weight →
    Heavy floats (floats.add (floats.ofNat 0) weight)
  add : ∀ {weight weight'}, Heavy floats weight → Heavy floats weight' →
    Heavy floats (floats.add weight weight')
  ne_zero : ∀ {weight}, Heavy floats weight →
    floats.partialCmp weight (floats.ofNat 0) ≠ some .eq

theorem heavyParts_heavy (means weights : List real) :
    ∀ point ∈ heavyParts floats means weights,
      Heavy floats point.weight := by
  intro point member
  obtain ⟨part, among, rfl⟩ := List.mem_map.mp member
  exact (List.mem_filter.mp among).2

private theorem WeightLaws.foldl_add (laws : WeightLaws floats) {start : real}
    (heavy : Heavy floats start) {weights : List real}
    (allHeavy : ∀ weight ∈ weights, Heavy floats weight) :
    Heavy floats (weights.foldl floats.add start) := by
  induction weights generalizing start with
  | nil =>
      exact heavy
  | cons weight rest inductionHypothesis =>
      obtain ⟨weightHeavy, restHeavy⟩ := List.forall_mem_cons.mp allHeavy
      exact inductionHypothesis (laws.add heavy weightHeavy) restHeavy

theorem WeightLaws.totalWeight (laws : WeightLaws floats)
    {points : List (Centroid real)} (present : points ≠ [])
    (allHeavy : ∀ point ∈ points, Heavy floats point.weight) :
    Heavy floats (totalWeight floats points) := by
  cases points with
  | nil =>
      exact absurd rfl present
  | cons first rest =>
      obtain ⟨firstHeavy, restHeavy⟩ := List.forall_mem_cons.mp allHeavy
      apply laws.foldl_add (laws.zero_add firstHeavy)
      intro weight member
      obtain ⟨point, among, rfl⟩ := List.mem_map.mp member
      exact restHeavy point among

/-- Compressing keeps positive weights, and never loses all centroids. -/
theorem WeightLaws.compress (laws : WeightLaws floats)
    {digest after : TDigest real} (empty : digest.buffer = [])
    (heavy : ∀ point ∈ digest.centroids, Heavy floats point.weight)
    (compressed : compress floats digest = some after) :
    (∀ point ∈ after.centroids, Heavy floats point.weight) ∧
      (after.centroids = [] → digest.centroids = []) := by
  obtain ⟨-, ⟨-, same⟩ | ⟨first, rest, permuted, -, clustered⟩⟩ :=
    compress_cases empty compressed
  · rw [same]
    exact ⟨heavy, id⟩
  · have sortedHeavy : ∀ point ∈ first :: rest, Heavy floats point.weight :=
      fun point member => heavy point (permuted.subset member)
    have weighty := laws.totalWeight (List.cons_ne_nil first rest) sortedHeavy
    rw [if_neg (laws.ne_zero weighty)] at clustered
    rw [clustered]
    refine ⟨?_, fun none => absurd none (cluster_ne_nil _ _ _ _ _ _)⟩
    refine forall_mem_cluster (fun point => Heavy floats point.weight) ?_
      sortedHeavy [] (List.forall_mem_nil _) _
    intro cur point _ curHeavy pointHeavy _
    exact laws.add curHeavy pointHeavy

end Sorting

end TDigest

end AetherEngine.Common
