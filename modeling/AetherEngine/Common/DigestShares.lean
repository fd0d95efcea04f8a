import AetherEngine.Common.DigestSorting

/-!
# What centroids stand for

Every centroid stands for a number of samples, in whatever sense the arithmetic
keeps: when two are joined the numbers add up, as long as there are not too many
samples.  A digest then never loses a sample and never panics, however it is
compressed, sent, read back and merged.
-/

namespace AetherEngine.Common

open AetherEngine.Ranking

namespace TDigest

variable {real : Type}

/-- A sense in which centroids stand for numbers of samples, and a total
accounts for their weights: they can be sorted, they weigh something, and
joining them adds the numbers up to a limit. -/
structure Standing (floats : DigestFloats real) (limit : Nat)
    (stands : Nat → Centroid real → Prop)
    (accounts : real → Centroid real → Prop) : Prop where
  laws : WeightLaws floats
  number : ∀ {share point}, stands share point →
    (floats.partialCmp point.mean point.mean).isSome = true
  heavy : ∀ {share point}, stands share point → Heavy floats point.weight
  total : ∀ {points : List (Centroid real)},
    (∀ point ∈ points, Heavy floats point.weight) →
    ∀ point ∈ points, accounts (totalWeight floats points) point
  join : ∀ {share share' point point'} {delta total cum : real},
    stands share point → stands share' point' → share + share' ≤ limit →
    accounts total point → accounts total point' →
    Allowed floats delta total cum (floats.add point.weight point'.weight) →
    stands (share + share') (joined floats point point') ∧
      accounts total (joined floats point point')

/-- The centroids stand for so many samples together. -/
inductive Shares (stands : Nat → Centroid real → Prop) :
    List (Centroid real) → Nat → Prop
  | nil : Shares stands [] 0
  | cons {point : Centroid real} {rest : List (Centroid real)}
      {share others : Nat} (first : stands share point)
      (later : Shares stands rest others) :
      Shares stands (point :: rest) (share + others)

section Shares

variable {stands : Nat → Centroid real → Prop}

theorem Shares.singleton {point : Centroid real} {share : Nat}
    (first : stands share point) : Shares stands [point] share :=
  .cons first .nil

theorem Shares.append {points points' : List (Centroid real)}
    {number number' : Nat} (shares : Shares stands points number)
    (shares' : Shares stands points' number') :
    Shares stands (points ++ points') (number + number') := by
  induction shares with
  | nil =>
      rw [List.nil_append, Nat.zero_add]
      exact shares'
  | cons first _ inductionHypothesis =>
      rw [List.cons_append, Nat.add_assoc]
      exact .cons first inductionHypothesis

theorem Shares.perm {points points' : List (Centroid real)} {number : Nat}
    (shares : Shares stands points number)
    (permuted : points.Perm points') : Shares stands points' number := by
  induction permuted generalizing number with
  | nil =>
      exact shares
  | cons point _ inductionHypothesis =>
      cases shares with
      | cons first later =>
          exact .cons first (inductionHypothesis later)
  | swap point point' rest =>
      cases shares with
      | cons first later =>
          cases later with
          | cons second others =>
              rw [Nat.add_left_comm]
              exact .cons second (.cons first others)
  | trans _ _ inductionHypothesis inductionHypothesis' =>
      exact inductionHypothesis' (inductionHypothesis shares)

theorem Shares.exists_share {points : List (Centroid real)} {number : Nat}
    (shares : Shares stands points number) :
    ∀ point ∈ points, ∃ share, stands share point := by
  induction shares with
  | nil =>
      exact List.forall_mem_nil _
  | cons first _ inductionHypothesis =>
      exact List.forall_mem_cons.mpr ⟨⟨_, first⟩, inductionHypothesis⟩

end Shares

section Standing

variable {floats : DigestFloats real} {limit : Nat}
variable {stands : Nat → Centroid real → Prop}
variable {accounts : real → Centroid real → Prop}

/-- What a digest holds: its centroids, and its samples one by one. -/
def points (floats : DigestFloats real) (digest : TDigest real) :
    List (Centroid real) :=
  digest.centroids ++
    digest.buffer.map (fun sample => ⟨sample, floats.ofNat 1⟩)

/-- The digest stands for so many samples. -/
def Stands (floats : DigestFloats real)
    (stands : Nat → Centroid real → Prop) (digest : TDigest real)
    (number : Nat) : Prop :=
  Shares stands (digest.points floats) number

theorem stands_of_centroids {digest : TDigest real} {number : Nat}
    (empty : digest.buffer = [])
    (shares : Shares stands digest.centroids number) :
    digest.Stands floats stands number := by
  rw [Stands, points, empty, List.map_nil, List.append_nil]
  exact shares

theorem Stands.centroids {digest : TDigest real} {number : Nat}
    (held : digest.Stands floats stands number)
    (empty : digest.buffer = []) :
    Shares stands digest.centroids number := by
  rw [Stands, points, empty, List.map_nil, List.append_nil] at held
  exact held

theorem stands_withDelta (delta : real) :
    (withDelta floats delta).Stands floats stands 0 :=
  .nil

private theorem Standing.forall_heavy
    (standing : Standing floats limit stands accounts)
    {points : List (Centroid real)} {number : Nat}
    (shares : Shares stands points number) :
    ∀ point ∈ points, Heavy floats point.weight := by
  intro point member
  obtain ⟨share, held⟩ := shares.exists_share point member
  exact standing.heavy held

theorem Standing.sortMeans (standing : Standing floats limit stands accounts)
    {points : List (Centroid real)} {number : Nat}
    (shares : Shares stands points number) :
    ∃ sorted, sortMeans floats points = some sorted ∧
      sorted.Perm points := by
  have sortable : Sortable floats points := by
    refine Or.inr fun point member => ?_
    obtain ⟨share, held⟩ := shares.exists_share point member
    exact standing.number held
  rw [← sortMeans_isSome_iff] at sortable
  obtain ⟨sorted, finished⟩ := Option.isSome_iff_exists.mp sortable
  exact ⟨sorted, finished, sortMeans_perm finished⟩

/-- Clustering adds the numbers of what it joins. -/
theorem Standing.cluster (standing : Standing floats limit stands accounts)
    {delta total : real} {rest merged : List (Centroid real)}
    {cur : Centroid real} {cum : real} {share later earlier : Nat}
    (curStands : stands share cur) (restShares : Shares stands rest later)
    (mergedShares : Shares stands merged earlier)
    (accounted : ∀ point ∈ cur :: rest, accounts total point)
    (few : earlier + (share + later) ≤ limit) :
    Shares stands (cluster floats delta total rest merged cur cum)
      (earlier + (share + later)) := by
  induction restShares generalizing cur merged cum share earlier with
  | nil =>
      exact mergedShares.append (.singleton curStands)
  | @cons point rest share' others pointStands _ inductionHypothesis =>
      obtain ⟨curAccounted, restAccounted⟩ :=
        List.forall_mem_cons.mp accounted
      obtain ⟨pointAccounted, laterAccounted⟩ :=
        List.forall_mem_cons.mp restAccounted
      rcases cluster_cons_cases delta total rest merged cur point cum with
        ⟨allowed, same⟩ | same
      · obtain ⟨bothStand, bothAccounted⟩ := standing.join curStands
          pointStands (by omega) curAccounted pointAccounted allowed
        rw [same, ← Nat.add_assoc share]
        exact inductionHypothesis bothStand mergedShares
          (List.forall_mem_cons.mpr ⟨bothAccounted, laterAccounted⟩)
          (by omega)
      · rw [same, ← Nat.add_assoc earlier]
        exact inductionHypothesis pointStands
          (mergedShares.append (.singleton curStands)) restAccounted
          (by omega)

/-- Compressing keeps the number of samples and empties the buffer. -/
theorem Standing.compress (standing : Standing floats limit stands accounts)
    {digest : TDigest real} {number : Nat}
    (held : digest.Stands floats stands number) (few : number ≤ limit) :
    ∃ after, compress floats digest = some after ∧ after.buffer = [] ∧
      Shares stands after.centroids number := by
  rw [TDigest.compress]
  split
  · next idle =>
      have empty : digest.buffer = [] :=
        List.isEmpty_iff.mp (Bool.and_eq_true_iff.mp idle).1
      exact ⟨digest, rfl, empty, held.centroids empty⟩
  · next busy =>
      obtain ⟨sorted, finished, permuted⟩ := standing.sortMeans held
      have shares := Shares.perm held permuted.symm
      rw [points] at finished
      rw [finished, Option.bind_eq_bind, Option.bind_some]
      cases sorted with
      | nil =>
          -- nothing is held, yet the early return was not taken
          have nothing := permuted.symm.eq_nil
          rw [points, List.append_eq_nil_iff, List.map_eq_nil_iff] at nothing
          rw [nothing.1, nothing.2] at busy
          exact absurd rfl busy
      | cons first rest =>
          have heavy := standing.forall_heavy shares
          have weighty :=
            standing.laws.totalWeight (List.cons_ne_nil first rest) heavy
          have accounted := standing.total heavy
          dsimp only
          rw [if_neg (standing.laws.ne_zero weighty)]
          refine ⟨_, rfl, rfl, ?_⟩
          cases shares with
          | cons firstStands later =>
              rw [← Nat.zero_add (_ + _)] at few ⊢
              exact standing.cluster firstStands later .nil accounted few

/-- Adding a finite sample adds one. -/
theorem Standing.add (standing : Standing floats limit stands accounts)
    {digest : TDigest real} {number : Nat}
    (held : digest.Stands floats stands number) {sample : real}
    (one : floats.isFinite sample = true →
      stands 1 ⟨sample, floats.ofNat 1⟩)
    (few : number + (if floats.isFinite sample then 1 else 0) ≤ limit) :
    ∃ after, add floats digest sample = some after ∧
      after.Stands floats stands
        (number + if floats.isFinite sample then 1 else 0) := by
  rw [TDigest.add]
  split
  · next finite =>
      rw [if_pos finite] at few
      have grown : ∀ count, Stands floats stands
          { digest with buffer := digest.buffer ++ [sample], count := count }
          (number + 1) := by
        intro count
        rw [Stands, points, List.map_append, ← List.append_assoc]
        exact Shares.append held (.singleton (one finite))
      dsimp only
      split
      · obtain ⟨after, compressed, empty, shares⟩ :=
          standing.compress (grown _) few
        exact ⟨after, compressed, stands_of_centroids empty shares⟩
      · exact ⟨_, rfl, grown _⟩
  · exact ⟨digest, rfl, held⟩

/-- Parallel lists of the means and weights of centroids. -/
def means (points : List (Centroid real)) : List real :=
  points.map Centroid.mean

def weights (points : List (Centroid real)) : List real :=
  points.map Centroid.weight

/-- The wire form lists centroids that stand for the same number. -/
theorem Standing.toParts (standing : Standing floats limit stands accounts)
    {digest : TDigest real} {number : Nat}
    (held : digest.Stands floats stands number) (few : number ≤ limit) :
    ∃ (after : TDigest real) (points : List (Centroid real)),
      toParts floats digest = some (after, (means points, weights points)) ∧
      Shares stands points number := by
  obtain ⟨after, compressed, -, shares⟩ := standing.compress held few
  refine ⟨after, after.centroids, ?_, shares⟩
  rw [TDigest.toParts, compressed]
  rfl

theorem heavyParts_means_weights {points : List (Centroid real)}
    (heavy : ∀ point ∈ points, Heavy floats point.weight) :
    heavyParts floats (means points) (weights points) = points := by
  have all : (points.map (fun point => (point.mean, point.weight))).filter
      (fun part => floats.lt (floats.ofNat 0) part.2) =
        points.map (fun point => (point.mean, point.weight)) := by
    rw [List.filter_eq_self]
    intro part member
    obtain ⟨point, among, rfl⟩ := List.mem_map.mp member
    exact heavy point among
  rw [heavyParts, means, weights, List.zip_map', all, List.map_map]
  exact List.map_id points

/-- Reading the wire form restores centroids that stand for the number. -/
theorem Standing.fromParts (standing : Standing floats limit stands accounts)
    {points : List (Centroid real)} {number : Nat}
    (shares : Shares stands points number) :
    ∃ digest, fromParts floats (means points) (weights points) =
        some digest ∧ digest.buffer = [] ∧
      Shares stands digest.centroids number := by
  have parts := heavyParts_means_weights (standing.forall_heavy shares)
  obtain ⟨received, empty, same⟩ :=
    fromParts_eq floats (means points) (weights points)
  obtain ⟨sorted, finished, permuted⟩ := standing.sortMeans shares
  rw [parts, finished, Option.map_some] at same
  exact ⟨_, same, empty, shares.perm permuted.symm⟩

/-- Merging adds the numbers. -/
theorem Standing.merge (standing : Standing floats limit stands accounts)
    {digest other : TDigest real} {number number' : Nat}
    (held : digest.Stands floats stands number)
    (heldOther : other.Stands floats stands number')
    (few : number + number' ≤ limit) :
    ∃ after, merge floats digest other = some after ∧ after.buffer = [] ∧
      Shares stands after.centroids (number + number') := by
  rw [TDigest.merge]
  apply standing.compress _ few
  refine Shares.perm (held.append heldOther) ?_
  rw [points, points, points, List.map_append, List.append_assoc,
    List.append_assoc]
  apply List.Perm.append_left
  rw [← List.append_assoc, ← List.append_assoc]
  exact List.perm_append_comm.append_right _

end Standing

/-! ## In exact arithmetic -/

section Exact

open AetherEngine.Doubles

variable {K : Type} [Field K]

/-- A finite mean, and the number of samples for a weight. -/
def Solid (share : Nat) (point : Centroid (Double K)) : Prop :=
  0 < share ∧ ∃ mean : K, point = solid (mean, share)

theorem shares_solid {points : List (K × Nat)}
    (positive : ∀ point ∈ points, 0 < point.2) :
    Shares Solid (points.map solid) (points.map Prod.snd).sum := by
  induction points with
  | nil =>
      exact .nil
  | cons point rest inductionHypothesis =>
      obtain ⟨first, later⟩ := List.forall_mem_cons.mp positive
      rw [List.map_cons, List.map_cons, List.sum_cons]
      exact .cons ⟨first, point.1, rfl⟩ (inductionHypothesis later)

theorem Shares.exists_solid {centroids : List (Centroid (Double K))}
    {number : Nat} (shares : Shares Solid centroids number) :
    ∃ points : List (K × Nat), centroids = points.map solid ∧
      (∀ point ∈ points, 0 < point.2) ∧
      (points.map Prod.snd).sum = number := by
  induction shares with
  | nil =>
      exact ⟨[], rfl, List.forall_mem_nil _, rfl⟩
  | @cons point rest share others first _ inductionHypothesis =>
      obtain ⟨positive, mean, rfl⟩ := first
      obtain ⟨points, rfl, later, rfl⟩ := inductionHypothesis
      exact ⟨(mean, share) :: points, rfl,
        List.forall_mem_cons.mpr ⟨positive, later⟩, rfl⟩

variable [LinearOrder K] {scale : K → K → K}

theorem solid_of_isFinite {sample : Double K}
    (finite : (exactFloats scale).isFinite sample = true) :
    Solid 1 ⟨sample, (exactFloats scale).ofNat 1⟩ := by
  cases sample with
  | finite mean =>
      exact ⟨Nat.one_pos, mean, rfl⟩
  | infinite negative =>
      cases finite
  | nan =>
      cases finite

variable (scale)

theorem heavy_exact_iff {weight : Double K} :
    Heavy (exactFloats scale) weight ↔ weight.IsPositive := by
  rw [← Double.lt_zero_iff, ← Nat.cast_zero]
  rfl

variable [IsStrictOrderedRing K]

private theorem weightLaws_exactFloats : WeightLaws (exactFloats scale) where
  zero_add := by
    intro weight heavy
    have same : (exactFloats scale).add ((exactFloats scale).ofNat 0)
        weight = weight := by
      cases weight with
      | finite value => simp [exactFloats]
      | infinite negative => rfl
      | nan => rfl
    rw [same]
    exact heavy
  add := by
    intro weight weight' heavy heavy'
    rw [heavy_exact_iff] at heavy heavy' ⊢
    exact heavy.add heavy'
  ne_zero := by
    intro weight heavy
    rw [heavy_exact_iff] at heavy
    have apart := heavy.ne_zero
    rw [← Nat.cast_zero] at apart
    exact apart

/-- In exact arithmetic joined centroids stand for the samples of both. -/
theorem standing_solid (limit : Nat) :
    Standing (exactFloats scale) limit Solid (fun _ _ => True) where
  laws := weightLaws_exactFloats scale
  number := by
    rintro share point ⟨-, mean, rfl⟩
    rfl
  heavy := by
    rintro share point ⟨positive, mean, rfl⟩
    rw [heavy_exact_iff]
    exact Nat.cast_pos.mpr positive
  total _ _ _ := trivial
  join := by
    rintro share share' point point' _ _ _ ⟨positive, mean, rfl⟩
      ⟨positive', mean', rfl⟩ - - - -
    have together := Nat.add_pos_left positive share'
    have nonzero : (share : K) + share' ≠ 0 := by
      rw [← Nat.cast_add]
      exact Nat.cast_ne_zero.mpr together.ne'
    refine ⟨⟨together,
      (mean * share + mean' * share') / (share + share'), ?_⟩, trivial⟩
    have quotient := Double.div_finite (mean * share + mean' * share') nonzero
    rw [joined, solid, solid, solid, Nat.cast_add, ← quotient]
    rfl

end Exact

end TDigest

end AetherEngine.Common
