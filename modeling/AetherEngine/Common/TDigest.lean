import AetherEngine.Foundations.Clustering
import AetherEngine.Foundations.Doubles
import AetherEngine.Foundations.Gathering
import AetherEngine.Foundations.Ranking
import Mathlib.Algebra.BigOperators.Ring.Finset
import Mathlib.Algebra.Order.BigOperators.Group.List

/-!
# A mergeable sketch for percentiles

Samples are buffered and folded into centroids under a bound on the quantiles a
centroid may span.  Merging concatenates centroids and compresses again.

The arithmetic is a parameter.  Sorting by mean panics when it meets a mean that
compares with nothing; an operation that would panic gives no result.
-/

namespace AetherEngine.Common

open AetherEngine.Clustering (collect)
open AetherEngine.Doubles
open AetherEngine.Gathering
open AetherEngine.Ranking

/-- What the sketch uses of floating-point numbers. -/
structure DigestFloats (real : Type) where
  ofNat : Nat → real
  nan : real
  add : real → real → real
  sub : real → real → real
  mul : real → real → real
  div : real → real → real
  le : real → real → Bool
  lt : real → real → Bool
  partialCmp : real → real → Option Ordering
  isFinite : real → Bool
  /-- The scale function of a compression, at a quantile. -/
  k : real → real → real

variable {real : Type}

/-- A cluster of samples: their mean and total weight. -/
structure Centroid (real : Type) where
  mean : real
  weight : real

structure TDigest (real : Type) where
  centroids : List (Centroid real)
  /-- Samples not folded in yet. -/
  buffer : List real
  count : real
  delta : real

namespace TDigest

def withDelta (floats : DigestFloats real) (delta : real) : TDigest real where
  centroids := []
  buffer := []
  count := floats.ofNat 0
  delta := delta

def new (floats : DigestFloats real) : TDigest real :=
  withDelta floats (floats.ofNat 100)

def isEmpty (floats : DigestFloats real) (digest : TDigest real) : Bool :=
  floats.partialCmp digest.count (floats.ofNat 0) = some .eq

/-- Sort by mean. -/
def sortMeans (floats : DigestFloats real) (points : List (Centroid real)) :
    Option (List (Centroid real)) :=
  if points.length ≤ 1 ∨
      points.all (fun point =>
        (floats.partialCmp point.mean point.mean).isSome) then
    some (sortBy (fun first second =>
      floats.partialCmp first.mean second.mean ≠ some .gt) points)
  else
    none

def totalWeight (floats : DigestFloats real)
    (points : List (Centroid real)) : real :=
  (points.map Centroid.weight).foldl floats.add (floats.ofNat 0)

/-- Greedy clustering; `cum` is the weight before the current centroid. -/
def cluster (floats : DigestFloats real) (delta total : real) :
    List (Centroid real) → List (Centroid real) → Centroid real → real →
      List (Centroid real)
  | [], merged, cur, _ => merged ++ [cur]
  | point :: rest, merged, cur, cum =>
      let proposed := floats.add cur.weight point.weight
      let left := floats.div cum total
      let right := floats.div (floats.add cum proposed) total
      if floats.le (floats.sub (floats.k delta right) (floats.k delta left))
          (floats.ofNat 1) then
        let mean := floats.div
          (floats.add (floats.mul cur.mean cur.weight)
            (floats.mul point.mean point.weight)) proposed
        cluster floats delta total rest merged ⟨mean, proposed⟩ cum
      else
        cluster floats delta total rest (merged ++ [cur]) point
          (floats.add cum cur.weight)

/-- Fold the buffer in and cluster everything again. -/
def compress (floats : DigestFloats real) (digest : TDigest real) :
    Option (TDigest real) :=
  if digest.buffer.isEmpty && digest.centroids.length ≤ 1 then
    some digest
  else do
    let points ← sortMeans floats (digest.centroids ++
      digest.buffer.map (fun sample => ⟨sample, floats.ofNat 1⟩))
    let total := totalWeight floats points
    if floats.partialCmp total (floats.ofNat 0) = some .eq then
      some { digest with centroids := [], buffer := [],
                         count := floats.ofNat 0 }
    else
      match points with
      | [] => none
      | first :: rest =>
          some { digest with
            centroids := cluster floats digest.delta total rest [] first
              (floats.ofNat 0)
            buffer := []
            count := total }

/-- Add one sample; what is not finite is ignored. -/
def add (floats : DigestFloats real) (digest : TDigest real) (sample : real) :
    Option (TDigest real) :=
  if floats.isFinite sample then
    let added :=
      { digest with
        buffer := digest.buffer ++ [sample]
        count := floats.add digest.count (floats.ofNat 1) }
    if floats.le (floats.mul added.delta (floats.ofNat 10))
        (floats.ofNat added.buffer.length) then
      compress floats added
    else
      some added
  else
    some digest

/-- The wire form: parallel lists of means and weights. -/
def toParts (floats : DigestFloats real) (digest : TDigest real) :
    Option (TDigest real × (List real × List real)) := do
  let digest ← compress floats digest
  some (digest, (digest.centroids.map Centroid.mean,
    digest.centroids.map Centroid.weight))

/-- A part with its weight joins the centroids unless the weight is not
positive. -/
def pushPart (floats : DigestFloats real) (digest : TDigest real)
    (part : real × real) : TDigest real :=
  if floats.lt (floats.ofNat 0) part.2 then
    { digest with
      centroids := digest.centroids ++ [⟨part.1, part.2⟩]
      count := floats.add digest.count part.2 }
  else
    digest

/-- Reconstruct from the wire form. -/
def fromParts (floats : DigestFloats real) (means weights : List real) :
    Option (TDigest real) := do
  let pushed := (means.zip weights).foldl (pushPart floats) (new floats)
  let sorted ← sortMeans floats pushed.centroids
  some { pushed with centroids := sorted }

/-- Merge another digest into this one. -/
def merge (floats : DigestFloats real) (digest other : TDigest real) :
    Option (TDigest real) :=
  let count := (other.centroids.map Centroid.weight).foldl floats.add
    digest.count
  compress floats
    { digest with
      centroids := digest.centroids ++ other.centroids
      buffer := digest.buffer ++ other.buffer
      count := other.buffer.foldl
        (fun count _ => floats.add count (floats.ofNat 1)) count }

/-- The smaller and the larger bound take over outside their range. -/
def clampUnit (floats : DigestFloats real) (q : real) : real :=
  if floats.lt q (floats.ofNat 0) then floats.ofNat 0
  else if floats.lt (floats.ofNat 1) q then floats.ofNat 1
  else q

/-- Walk the centroids to the one whose centre the target rank does not
pass. -/
def quantileFrom (floats : DigestFloats real) (target : real) :
    List (Centroid real) → Bool → real → real → real → real
  | [], _, _, _, prevMean => prevMean
  | centroid :: rest, isFirst, acc, prevCenter, prevMean =>
      let center := floats.add acc
        (floats.div centroid.weight (floats.ofNat 2))
      if floats.le target center then
        if isFirst then
          centroid.mean
        else
          let t := floats.div (floats.sub target prevCenter)
            (floats.sub center prevCenter)
          floats.add prevMean
            (floats.mul t (floats.sub centroid.mean prevMean))
      else
        quantileFrom floats target rest false
          (floats.add acc centroid.weight) center centroid.mean

/-- The value at a quantile, interpolated across centroid centres. -/
def quantile (floats : DigestFloats real) (digest : TDigest real)
    (q : real) : real :=
  match digest.centroids with
  | [] => floats.nan
  | [only] => only.mean
  | first :: rest =>
      quantileFrom floats
        (floats.mul (clampUnit floats q) digest.count) (first :: rest) true
        (floats.ofNat 0) (floats.ofNat 0) first.mean

end TDigest

/-! ## Exact arithmetic -/

section Exact

variable {K : Type} [Field K] [LinearOrder K]

/-- Exact arithmetic, with any scale function. -/
def exactFloats (scale : K → K → K) : DigestFloats (Double K) where
  ofNat number := .finite number
  nan := .nan
  add := Double.add
  sub := Double.sub
  mul := Double.mul
  div := Double.div
  le := Double.le
  lt := Double.lt
  partialCmp := Double.partialCmp
  isFinite := Double.isFinite
  k
    | .finite delta, .finite q => .finite (scale delta q)
    | _, _ => .nan

namespace TDigest

/-! ### Weighted points -/

omit [Field K] [LinearOrder K] in
/-- A centroid with a finite mean and a finite weight. -/
def firm (point : K × K) : Centroid (Double K) :=
  ⟨.finite point.1, .finite point.2⟩

omit [LinearOrder K] in
/-- The digest of such centroids and such a buffer that counts all it holds. -/
def keeping (delta : Double K) (points : List (K × K)) (samples : List K) :
    TDigest (Double K) where
  centroids := points.map firm
  buffer := samples.map .finite
  count := .finite ((points.map Prod.snd).sum + (samples.length : K))
  delta := delta

omit [LinearOrder K] in
/-- Samples as points. -/
def units (samples : List K) : List (K × K) :=
  samples.map (fun sample => (sample, 1))

/-- Points in the order of their means. -/
def sortFirm (points : List (K × K)) : List (K × K) :=
  sortBy (fun first second => decide (first.1 ≤ second.1)) points

omit [LinearOrder K] in
/-- The point that stands for two. -/
def joinFirm (first second : K × K) : K × K :=
  ((first.1 * first.2 + second.1 * second.2) / (first.2 + second.2),
    first.2 + second.2)

/-- May a cluster reach from one rank to another in such a total? -/
def reaches (scale : K → K → K) (delta : Double K) (total left right : K) :
    Bool :=
  let q (rank : K) : Double K :=
    (exactFloats scale).div (.finite rank) (.finite total)
  (exactFloats scale).le
    ((exactFloats scale).sub ((exactFloats scale).k delta (q right))
      ((exactFloats scale).k delta (q left)))
    ((exactFloats scale).ofNat 1)

section Firm

omit [LinearOrder K] in
theorem joinFirm_weight (first second : K × K) :
    (joinFirm first second).2 = first.2 + second.2 :=
  rfl

variable (scale : K → K → K)

private theorem foldl_add_firm (points : List (K × K)) (start : K) :
    ((points.map firm).map Centroid.weight).foldl (exactFloats scale).add
        (.finite start) =
      .finite (start + (points.map Prod.snd).sum) := by
  induction points generalizing start with
  | nil =>
      simp
  | cons point rest inductionHypothesis =>
      rw [List.map_cons, List.map_cons, List.foldl_cons]
      refine (inductionHypothesis (start + point.2)).trans ?_
      rw [List.map_cons, List.sum_cons, add_assoc]

private theorem totalWeight_firm (points : List (K × K)) :
    totalWeight (exactFloats scale) (points.map firm) =
      .finite (points.map Prod.snd).sum := by
  refine (foldl_add_firm scale points ((0 : Nat) : K)).trans ?_
  rw [Nat.cast_zero, zero_add]

private theorem sortMeans_firm (points : List (K × K)) :
    sortMeans (exactFloats scale) (points.map firm) =
      some ((sortFirm points).map firm) := by
  rw [sortMeans, if_pos]
  · rw [sortFirm, map_sortBy firm]
    intro first second
    have compared :
        some (compare first.1 second.1) ≠ some .gt ↔ first.1 ≤ second.1 := by
      rw [← compare_le_iff_le]
      simp
    exact (decide_eq_decide.mpr compared).symm
  · apply Or.inr
    rw [List.all_eq_true]
    intro centroid member
    obtain ⟨point, -, rfl⟩ := List.mem_map.mp member
    rfl

omit [Field K] in
theorem sortFirm_perm (points : List (K × K)) :
    (sortFirm points).Perm points :=
  sortBy_perm _ points

omit [Field K] in
theorem pairwise_sortFirm (points : List (K × K)) :
    (sortFirm points).Pairwise (fun first second => first.1 ≤ second.1) :=
  pairwise_sortBy_key Prod.fst points

omit [Field K] in
theorem sortFirm_of_pairwise {points : List (K × K)}
    (ascending : points.Pairwise
      (fun first second => first.1 ≤ second.1)) :
    sortFirm points = points := by
  rw [sortFirm, sortBy]
  apply List.Pairwise.insertionSort_eq
  simpa using ascending

variable [IsStrictOrderedRing K]

/-- The clusters are those that collecting finds. -/
theorem cluster_firm (delta : Double K) (total : K) {rest : List (K × K)}
    {cur : K × K} (positive : ∀ point ∈ cur :: rest, 0 < point.2)
    (merged : List (Centroid (Double K))) (before : K) :
    cluster (exactFloats scale) delta (.finite total) (rest.map firm) merged
        (firm cur) (.finite before) =
      merged ++ (collect Prod.snd joinFirm (reaches scale delta total) rest cur
        before).map firm := by
  induction rest generalizing cur merged before with
  | nil =>
      rfl
  | cons point rest inductionHypothesis =>
      obtain ⟨curPositive, restPositive⟩ := List.forall_mem_cons.mp positive
      obtain ⟨pointPositive, laterPositive⟩ :=
        List.forall_mem_cons.mp restPositive
      have both : 0 < cur.2 + point.2 := add_pos curPositive pointPositive
      rw [List.map_cons, cluster, collect]
      by_cases joined : reaches scale delta total before
          (before + (cur.2 + point.2)) = true
      · rw [if_pos joined]
        refine (if_pos joined).trans ?_
        have mean :
            (⟨(exactFloats scale).div
                ((exactFloats scale).add
                  ((exactFloats scale).mul (firm cur).mean (firm cur).weight)
                  ((exactFloats scale).mul (firm point).mean
                    (firm point).weight))
                ((exactFloats scale).add (firm cur).weight
                  (firm point).weight),
              (exactFloats scale).add (firm cur).weight
                (firm point).weight⟩ : Centroid (Double K)) =
              firm (joinFirm cur point) := by
          simp only [firm, joinFirm, exactFloats, Double.mul_finite,
            Double.add_finite, Double.div_finite _ both.ne']
        dsimp only
        rw [mean]
        exact inductionHypothesis
          (List.forall_mem_cons.mpr ⟨both, laterPositive⟩) merged before
      · rw [if_neg joined]
        refine (if_neg joined).trans ?_
        have next := inductionHypothesis restPositive (merged ++ [firm cur])
          (before + cur.2)
        rw [List.append_assoc] at next
        exact next

omit [IsStrictOrderedRing K] [LinearOrder K] in
theorem sum_units (samples : List K) :
    ((units samples).map Prod.snd).sum = (samples.length : K) := by
  simp [units, Function.comp_def]

/-- The weights of what a digest keeps. -/
theorem positive_append_units {points : List (K × K)}
    (positive : ∀ point ∈ points, 0 < point.2) (samples : List K) :
    ∀ point ∈ points ++ units samples, 0 < point.2 := by
  intro point member
  rcases List.mem_append.mp member with old | new
  · exact positive point old
  · obtain ⟨sample, -, rfl⟩ := List.mem_map.mp new
    exact one_pos

theorem sum_weights_nonneg {points : List (K × K)}
    (positive : ∀ point ∈ points, 0 < point.2) :
    0 ≤ (points.map Prod.snd).sum := by
  apply List.sum_nonneg
  intro weight member
  obtain ⟨point, among, rfl⟩ := List.mem_map.mp member
  exact (positive point among).le

theorem sum_weights_pos {first : K × K} {rest : List (K × K)}
    (positive : ∀ point ∈ first :: rest, 0 < point.2) :
    0 < ((first :: rest).map Prod.snd).sum := by
  obtain ⟨firstPositive, restPositive⟩ := List.forall_mem_cons.mp positive
  rw [List.map_cons, List.sum_cons]
  exact add_pos_of_pos_of_nonneg firstPositive
    (sum_weights_nonneg restPositive)

/-- With something to fold in or to join, compressing collects the sorted
points. -/
theorem compress_of_sortFirm (delta : Double K) {points : List (K × K)}
    (positive : ∀ point ∈ points, 0 < point.2) {samples : List K}
    {first : K × K} {rest : List (K × K)}
    (sorted : sortFirm (points ++ units samples) = first :: rest)
    (busy : ((keeping delta points samples).buffer.isEmpty &&
      decide ((keeping delta points samples).centroids.length ≤ 1)) ≠ true) :
    compress (exactFloats scale) (keeping delta points samples) =
      some (keeping delta
        (collect Prod.snd joinFirm (reaches scale delta
          ((points.map Prod.snd).sum + (samples.length : K))) rest first 0)
        []) := by
  have gathered :
      (keeping delta points samples).centroids ++
          (keeping delta points samples).buffer.map
            (fun sample => ⟨sample, (exactFloats scale).ofNat 1⟩) =
        (points ++ units samples).map firm := by
    rw [keeping, units, List.map_append, List.map_map, List.map_map]
    simp [exactFloats, firm, Function.comp_def]
  have permuted := sortFirm_perm (points ++ units samples)
  have sortedPositive : ∀ point ∈ first :: rest, 0 < point.2 := by
    intro point member
    rw [← sorted] at member
    exact positive_append_units positive samples point
      (permuted.subset member)
  have total := (permuted.map Prod.snd).sum_eq
  rw [List.map_append, List.sum_append, sum_units, sorted] at total
  have heavy := sum_weights_pos sortedPositive
  have clustered := cluster_firm scale delta
    ((points.map Prod.snd).sum + (samples.length : K)) sortedPositive [] 0
  have kept := Clustering.sum_collect
    (reaches scale delta ((points.map Prod.snd).sum + (samples.length : K)))
    joinFirm_weight rest first 0
  rw [compress, if_neg busy, gathered, sortMeans_firm, sorted]
  simp only [Option.bind_eq_bind, Option.bind_some, totalWeight_firm, total]
  rw [if_neg]
  · rw [keeping, keeping, kept, total, List.length_nil, Nat.cast_zero,
      add_zero]
    have zero : (exactFloats scale).ofNat 0 = .finite (0 : K) :=
      congrArg Double.finite Nat.cast_zero
    rw [List.nil_append] at clustered
    rw [← clustered, ← zero]
    rfl
  · intro empty
    have same : compare ((points.map Prod.snd).sum + (samples.length : K))
        ((0 : Nat) : K) = .eq :=
      Option.some.inj empty
    rw [compare_eq_iff_eq, Nat.cast_zero, ← total] at same
    exact heavy.ne' same

/-- Compressing collects what the digest keeps, unless there is nothing to
do. -/
theorem compress_keeping (delta : Double K) {points : List (K × K)}
    (positive : ∀ point ∈ points, 0 < point.2) (samples : List K) :
    (samples = [] ∧ points.length ≤ 1 ∧
      compress (exactFloats scale) (keeping delta points samples) =
        some (keeping delta points samples)) ∨
    ∃ (first : K × K) (rest : List (K × K)),
      sortFirm (points ++ units samples) = first :: rest ∧
      compress (exactFloats scale) (keeping delta points samples) =
        some (keeping delta
          (collect Prod.snd joinFirm (reaches scale delta
            ((points.map Prod.snd).sum + (samples.length : K))) rest first 0)
          []) := by
  by_cases done : ((keeping delta points samples).buffer.isEmpty &&
      decide ((keeping delta points samples).centroids.length ≤ 1)) = true
  · have nothing : samples = [] ∧ points.length ≤ 1 := by
      simpa [keeping] using done
    exact Or.inl ⟨nothing.1, nothing.2, if_pos done⟩
  · apply Or.inr
    cases sorted : sortFirm (points ++ units samples) with
    | nil =>
        -- no points at all, yet the early return was not taken
        have permuted := sortFirm_perm (points ++ units samples)
        rw [sorted] at permuted
        have parts := List.append_eq_nil_iff.mp permuted.symm.eq_nil
        rw [parts.1, List.map_eq_nil_iff.mp parts.2] at done
        simp [keeping] at done
    | cons first rest =>
        exact ⟨first, rest, rfl,
          compress_of_sortFirm scale delta positive sorted done⟩

omit [IsStrictOrderedRing K] in
/-- A finite sample joins the buffer, which is folded in when it is full. -/
theorem add_keeping (delta : Double K) (points : List (K × K))
    (samples : List K) (value : K) :
    add (exactFloats scale) (keeping delta points samples) (.finite value) =
      if (exactFloats scale).le
          ((exactFloats scale).mul delta ((exactFloats scale).ofNat 10))
          ((exactFloats scale).ofNat (samples.length + 1)) then
        compress (exactFloats scale)
          (keeping delta points (samples ++ [value]))
      else
        some (keeping delta points (samples ++ [value])) := by
  have added :
      ({ keeping delta points samples with
        buffer := (keeping delta points samples).buffer ++ [.finite value]
        count := (exactFloats scale).add (keeping delta points samples).count
          ((exactFloats scale).ofNat 1) } : TDigest (Double K)) =
        keeping delta points (samples ++ [value]) := by
    simp [keeping, exactFloats, add_assoc]
  have finite : (exactFloats scale).isFinite (.finite value) = true := rfl
  rw [add, if_pos finite]
  simp only [added]
  simp [keeping]

omit [IsStrictOrderedRing K] in
/-- The wire form lists what compressing leaves. -/
theorem toParts_of_keeping {digest : TDigest (Double K)} {delta : Double K}
    {points : List (K × K)}
    (compressed : compress (exactFloats scale) digest =
      some (keeping delta points [])) :
    toParts (exactFloats scale) digest =
      some (keeping delta points [],
        ((points.map Prod.fst).map .finite,
          (points.map Prod.snd).map .finite)) := by
  rw [toParts, compressed]
  simp [keeping, firm, Function.comp_def]

omit [IsStrictOrderedRing K] in
/-- The parts of positive weight join the centroids and the count. -/
theorem foldl_pushPart_firm (parts earlier : List (K × K)) :
    (parts.map (fun part : K × K =>
        (Double.finite part.1, Double.finite part.2))).foldl
      (pushPart (exactFloats scale))
      (keeping ((exactFloats scale).ofNat 100) earlier []) =
      keeping ((exactFloats scale).ofNat 100)
        (earlier ++ parts.filter (fun part => 0 < part.2)) [] := by
  induction parts generalizing earlier with
  | nil =>
      simp
  | cons part rest inductionHypothesis =>
      have compared : (exactFloats scale).lt ((exactFloats scale).ofNat 0)
          (.finite part.2) = decide (0 < part.2) := by
        refine (Double.lt_finite _ _).trans ?_
        rw [Nat.cast_zero]
      rw [List.map_cons, List.foldl_cons, pushPart, compared,
        List.filter_cons]
      by_cases heavy : 0 < part.2
      · have next := inductionHypothesis (earlier ++ [part])
        rw [List.append_assoc, List.singleton_append] at next
        rw [if_pos (decide_eq_true heavy), if_pos (decide_eq_true heavy),
          ← next]
        congr 1
        simp [keeping, firm, exactFloats]
      · have light : ¬ decide (0 < part.2) = true := by
          simpa using heavy
        rw [if_neg light, if_neg light]
        exact inductionHypothesis earlier

omit [IsStrictOrderedRing K] in
/-- The wire form reads back, without the parts that have no weight, and
sorted. -/
theorem fromParts_firm (means weights : List K) :
    fromParts (exactFloats scale) (means.map .finite)
        (weights.map .finite) =
      some (keeping ((exactFloats scale).ofNat 100)
        (sortFirm ((means.zip weights).filter (fun part => 0 < part.2)))
        []) := by
  have start : new (exactFloats scale) =
      keeping ((exactFloats scale).ofNat 100) [] [] := by
    simp [new, withDelta, keeping, exactFloats]
  have zipped : (means.map Double.finite).zip (weights.map Double.finite) =
      (means.zip weights).map (fun part : K × K =>
        (Double.finite part.1, Double.finite part.2)) :=
    List.zip_map
  have sum := ((sortFirm_perm ((means.zip weights).filter
    (fun part => 0 < part.2))).map Prod.snd).sum_eq
  rw [fromParts, start, zipped, foldl_pushPart_firm, List.nil_append]
  simp only [keeping, sortMeans_firm, sum, Option.bind_eq_bind,
    Option.bind_some]

omit [IsStrictOrderedRing K] in
private theorem foldl_add_units (samples : List (Double K)) (start : K) :
    samples.foldl (fun count _ => (exactFloats scale).add count
        ((exactFloats scale).ofNat 1)) (.finite start) =
      .finite (start + (samples.length : K)) := by
  induction samples generalizing start with
  | nil =>
      simp
  | cons sample rest inductionHypothesis =>
      rw [List.foldl_cons]
      refine (inductionHypothesis (start + ((1 : Nat) : K))).trans ?_
      rw [List.length_cons, Nat.cast_one, Nat.cast_succ, add_assoc,
        add_comm 1]

omit [IsStrictOrderedRing K] in
/-- Merging compresses what both digests keep. -/
theorem merge_keeping (delta delta' : Double K)
    (points points' : List (K × K)) (samples samples' : List K) :
    merge (exactFloats scale) (keeping delta points samples)
        (keeping delta' points' samples') =
      compress (exactFloats scale)
        (keeping delta (points ++ points') (samples ++ samples')) := by
  rw [merge]
  congr 1
  simp only [keeping, foldl_add_firm, foldl_add_units, List.map_append,
    List.sum_append, List.length_append, List.length_map, Nat.cast_add]
  congr 2
  rw [add_add_add_comm, add_assoc]

end Firm

/-! ### Whole weights -/

omit [LinearOrder K] in
/-- A centroid with a finite mean that stands for a number of samples. -/
def solid (point : K × Nat) : Centroid (Double K) :=
  ⟨.finite point.1, .finite point.2⟩

/-- The digest of such centroids and such a buffer that counts all it holds. -/
def holding (delta : Double K) (points : List (K × Nat)) (samples : List K) :
    TDigest (Double K) where
  centroids := points.map solid
  buffer := samples.map .finite
  count := .finite (((points.map Prod.snd).sum + samples.length : Nat) : K)
  delta := delta

variable (scale : K → K → K)

omit [LinearOrder K] in
/-- A point of whole weight among the weighted ones. -/
def weigh (point : K × Nat) : K × K :=
  (point.1, point.2)

omit [LinearOrder K] in
private theorem map_solid (points : List (K × Nat)) :
    points.map solid = (points.map weigh).map firm := by
  rw [List.map_map]
  rfl

omit [LinearOrder K] in
theorem sum_weigh (points : List (K × Nat)) :
    ((points.map weigh).map Prod.snd).sum =
      ((points.map Prod.snd).sum : Nat) := by
  rw [Nat.cast_list_sum, List.map_map, List.map_map]
  rfl

omit [LinearOrder K] in
theorem holding_eq_keeping (delta : Double K) (points : List (K × Nat))
    (samples : List K) :
    holding delta points samples =
      keeping delta (points.map weigh) samples := by
  rw [holding, keeping, map_solid, sum_weigh, Nat.cast_add]

omit [LinearOrder K] in
private theorem map_weigh_ones (samples : List K) :
    (ones samples).map weigh = units samples := by
  simp [ones, units, weigh, Function.comp_def]

theorem totalWeight_solid (points : List (K × Nat)) :
    totalWeight (exactFloats scale) (points.map solid) =
      .finite ((points.map Prod.snd).sum : Nat) := by
  rw [map_solid, totalWeight_firm, sum_weigh]

/-- Points in the order of their means. -/
def sortPoints (points : List (K × Nat)) : List (K × Nat) :=
  sortBy (fun first second => decide (first.1 ≤ second.1)) points

omit [Field K] in
theorem sortPoints_perm (points : List (K × Nat)) :
    (sortPoints points).Perm points :=
  sortBy_perm _ points

omit [Field K] in
theorem ascending_sortPoints (points : List (K × Nat)) :
    Ascending (sortPoints points) :=
  pairwise_sortBy_key Prod.fst points

private theorem map_weigh_sortPoints (points : List (K × Nat)) :
    (sortPoints points).map weigh = sortFirm (points.map weigh) := by
  rw [sortPoints, map_sortBy weigh, sortFirm]
  intro first second
  rfl

/-- May a cluster reach from one rank to another among so many samples? -/
def spans (delta : Double K) (mass left right : Nat) : Bool :=
  let q (rank : Nat) : Double K :=
    (exactFloats scale).div (.finite (rank : K)) (.finite (mass : K))
  (exactFloats scale).le
    ((exactFloats scale).sub ((exactFloats scale).k delta (q right))
      ((exactFloats scale).k delta (q left)))
    ((exactFloats scale).ofNat 1)

variable [IsStrictOrderedRing K]

omit [IsStrictOrderedRing K] in
/-- What a digest holds, sorted for clustering. -/
theorem sortPoints_summarizes {points : List (K × Nat)}
    (positive : ∀ point ∈ points, 0 < point.2) (samples : List K) :
    Summarizes (sortPoints (points ++ ones samples))
      (points ++ ones samples) := by
  have permuted := sortPoints_perm (points ++ ones samples)
  have held := (Summarizes.refl positive).append (Summarizes.ones_self samples)
  have sortedPositive :
      ∀ point ∈ sortPoints (points ++ ones samples), 0 < point.2 :=
    fun point member => held.positive point (permuted.subset member)
  exact (Summarizes.refl sortedPositive).of_perm permuted

theorem weigh_positive {points : List (K × Nat)}
    (positive : ∀ point ∈ points, 0 < point.2) :
    ∀ point ∈ points.map weigh, 0 < point.2 := by
  intro weighted member
  obtain ⟨point, among, rfl⟩ := List.mem_map.mp member
  exact Nat.cast_pos.mpr (positive point among)

omit [IsStrictOrderedRing K] in
/-- Gathering whole weights is collecting weighted points. -/
theorem map_weigh_gather (delta : Double K) (mass : Nat)
    (rest : List (K × Nat)) (cur : K × Nat) (before : Nat) :
    (gather (spans scale delta mass) rest cur before).map weigh =
      collect Prod.snd joinFirm (reaches scale delta (mass : K))
        (rest.map weigh) (weigh cur) (before : K) := by
  induction rest generalizing cur before with
  | nil =>
      rfl
  | cons point rest inductionHypothesis =>
      have rank : ((before + (cur.2 + point.2) : Nat) : K) =
          (before : K) + ((weigh cur).2 + (weigh point).2) := by
        rw [Nat.cast_add, Nat.cast_add]
        rfl
      have joined : weigh (join cur point) =
          joinFirm (weigh cur) (weigh point) := by
        rw [weigh, join, Nat.cast_add]
        rfl
      have same : spans scale delta mass before
          (before + (cur.2 + point.2)) =
          reaches scale delta (mass : K) (before : K)
            ((before : K) + ((weigh cur).2 + (weigh point).2)) := by
        rw [← rank]
        rfl
      rw [List.map_cons, gather, collect, ← same]
      split
      · rw [inductionHypothesis, joined]
      · rw [List.map_cons, inductionHypothesis, Nat.cast_add]
        rfl

/-- Compressing gathers what the digest holds, unless there is nothing to
do. -/
theorem compress_holding (delta : Double K) {points : List (K × Nat)}
    (positive : ∀ point ∈ points, 0 < point.2) (samples : List K) :
    (samples = [] ∧ points.length ≤ 1 ∧
      compress (exactFloats scale) (holding delta points samples) =
        some (holding delta points samples)) ∨
    ∃ (first : K × Nat) (rest : List (K × Nat)),
      sortPoints (points ++ ones samples) = first :: rest ∧
      compress (exactFloats scale) (holding delta points samples) =
        some (holding delta
          (gather (spans scale delta ((points.map Prod.snd).sum +
            samples.length)) rest first 0) []) := by
  rw [holding_eq_keeping]
  rcases compress_keeping scale delta (weigh_positive positive) samples with
    ⟨empty, short, same⟩ | ⟨heaviest, others, sorted, compressed⟩
  · rw [List.length_map] at short
    exact Or.inl ⟨empty, short, same⟩
  · rw [← map_weigh_ones, ← List.map_append, ← map_weigh_sortPoints,
      List.map_eq_cons_iff] at sorted
    obtain ⟨first, rest, sorted, rfl, rfl⟩ := sorted
    refine Or.inr ⟨first, rest, sorted, ?_⟩
    have gathered := map_weigh_gather scale delta
      ((points.map Prod.snd).sum + samples.length) rest first 0
    rw [Nat.cast_add, Nat.cast_zero, ← sum_weigh] at gathered
    rw [compressed, holding_eq_keeping, gathered]

/-- Compressing summarizes what the digest holds, in order. -/
theorem compress_summarizes (delta : Double K) {points : List (K × Nat)}
    (positive : ∀ point ∈ points, 0 < point.2) (samples : List K) :
    ∃ clusters : List (K × Nat),
      compress (exactFloats scale) (holding delta points samples) =
        some (holding delta clusters []) ∧
      Summarizes clusters (points ++ ones samples) ∧ Ascending clusters := by
  rcases compress_holding scale delta positive samples with
    ⟨rfl, short, same⟩ | ⟨first, rest, sorted, compressed⟩
  · refine ⟨points, same, ?_, ascending_of_length_le_one short⟩
    rw [ones, List.map_nil, List.append_nil]
    exact Summarizes.refl positive
  · have summary := sortPoints_summarizes positive samples
    have ascending := ascending_sortPoints (points ++ ones samples)
    rw [sorted] at summary ascending
    obtain ⟨clusters, clustersAscending⟩ := gather_spec
      (spans scale delta ((points.map Prod.snd).sum + samples.length)) 0
      summary.positive ascending
    exact ⟨_, compressed, clusters.trans summary, clustersAscending⟩

omit [IsStrictOrderedRing K] in
/-- A finite sample joins the buffer, which is folded in when it is full. -/
theorem add_holding (delta : Double K) (points : List (K × Nat))
    (samples : List K) (value : K) :
    add (exactFloats scale) (holding delta points samples) (.finite value) =
      if (exactFloats scale).le
          ((exactFloats scale).mul delta ((exactFloats scale).ofNat 10))
          ((exactFloats scale).ofNat (samples.length + 1)) then
        TDigest.compress (exactFloats scale)
          (holding delta points (samples ++ [value]))
      else
        some (holding delta points (samples ++ [value])) := by
  simp only [holding_eq_keeping]
  exact add_keeping scale delta (points.map weigh) samples value

omit [IsStrictOrderedRing K] in
/-- The wire form lists what compressing leaves. -/
theorem toParts_of_compress {digest : TDigest (Double K)} {delta : Double K}
    {points : List (K × Nat)}
    (compressed : TDigest.compress (exactFloats scale) digest =
      some (holding delta points [])) :
    toParts (exactFloats scale) digest =
      some (holding delta points [],
        (points.map (fun point => .finite point.1),
          points.map (fun point => .finite point.2))) := by
  rw [holding_eq_keeping] at compressed ⊢
  rw [toParts_of_keeping scale compressed]
  simp [weigh, Function.comp_def]

/-- The wire form reads back, sorted. -/
theorem fromParts_solid {points : List (K × Nat)}
    (positive : ∀ point ∈ points, 0 < point.2) :
    fromParts (exactFloats scale) (points.map (fun point => .finite point.1))
        (points.map (fun point => .finite point.2)) =
      some (holding ((exactFloats scale).ofNat 100) (sortPoints points) []) := by
  have received := fromParts_firm scale (points.map Prod.fst)
    (points.map (fun point => (point.2 : K)))
  have heavy : (points.map weigh).filter (fun part => 0 < part.2) =
      points.map weigh := by
    rw [List.filter_eq_self]
    intro part member
    exact decide_eq_true (weigh_positive positive part member)
  rw [List.map_map, List.map_map, List.zip_map'] at received
  rw [holding_eq_keeping, map_weigh_sortPoints, ← heavy]
  exact received

omit [IsStrictOrderedRing K] in
/-- Merging compresses what both digests hold. -/
theorem merge_holding (delta delta' : Double K)
    (points points' : List (K × Nat)) (samples samples' : List K) :
    merge (exactFloats scale) (holding delta points samples)
        (holding delta' points' samples') =
      TDigest.compress (exactFloats scale)
        (holding delta (points ++ points') (samples ++ samples')) := by
  simp only [holding_eq_keeping, List.map_append]
  exact merge_keeping scale delta delta' _ _ samples samples'

end TDigest

end Exact

end AetherEngine.Common
