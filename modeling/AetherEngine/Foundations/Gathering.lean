import AetherEngine.Foundations.Clustering
import Mathlib.Algebra.BigOperators.Group.List.Basic
import Mathlib.Algebra.BigOperators.Ring.List
import Mathlib.Algebra.GroupWithZero.Nat
import Mathlib.Algebra.Order.Field.Basic
import Mathlib.Data.List.Perm.Basic

/-!
# Greedy gathering of weighted points

A point has a mean and a whole weight.  Points in the order of their means are
gathered from the left: a cluster takes the next point in while a bound on the
ranks it would then span allows it.

No weight and no moment is lost, the clusters are in order again, and their
means stay within the bounds of the points.
-/

namespace AetherEngine.Gathering

universe u

variable {K : Type u} [Field K]

/-- The sum of the means, each as often as its weight says. -/
def moment (points : List (K × Nat)) : K :=
  (points.map (fun point => point.1 * (point.2 : K))).sum

@[simp]
theorem moment_nil : moment ([] : List (K × Nat)) = 0 :=
  rfl

@[simp]
theorem moment_cons (point : K × Nat) (points : List (K × Nat)) :
    moment (point :: points) = point.1 * (point.2 : K) + moment points :=
  rfl

private theorem moment_append (first second : List (K × Nat)) :
    moment (first ++ second) = moment first + moment second := by
  simp [moment]

private theorem moment_perm {first second : List (K × Nat)}
    (permuted : first.Perm second) : moment first = moment second :=
  (permuted.map _).sum_eq

/-- Values as points of weight one. -/
def ones (values : List K) : List (K × Nat) :=
  values.map (fun value => (value, 1))

omit [Field K] in
theorem ones_append (first second : List K) :
    ones (first ++ second) = ones first ++ ones second :=
  List.map_append

omit [Field K] in
@[simp]
theorem sum_ones (values : List K) :
    ((ones values).map Prod.snd).sum = values.length := by
  simp [ones, Function.comp_def]

@[simp]
theorem moment_ones (values : List K) : moment (ones values) = values.sum := by
  simp [moment, ones, Function.comp_def]

/-- The point that stands for two. -/
def join (first second : K × Nat) : K × Nat :=
  ((first.1 * first.2 + second.1 * second.2) / ((first.2 : K) + second.2),
    first.2 + second.2)

/-- Gather the points that follow a cluster; `before` is the weight to the left
of the cluster, and `joins` bounds the ranks a cluster may span. -/
def gather (joins : Nat → Nat → Bool) :
    List (K × Nat) → K × Nat → Nat → List (K × Nat)
  | [], cur, _ => [cur]
  | point :: rest, cur, before =>
      if joins before (before + (cur.2 + point.2)) then
        gather joins rest (join cur point) before
      else
        cur :: gather joins rest point (before + cur.2)

variable [LinearOrder K]

omit [Field K] in
/-- The means do not decrease. -/
def Ascending (points : List (K × Nat)) : Prop :=
  points.Pairwise (fun first second => first.1 ≤ second.1)

omit [Field K] in
theorem ascending_of_length_le_one {points : List (K × Nat)}
    (short : points.length ≤ 1) : Ascending points :=
  Clustering.pairwise_of_length_le_one short _

/-- What clusters keep of the points they were gathered from. -/
structure Summarizes (clusters points : List (K × Nat)) : Prop where
  positive : ∀ cluster ∈ clusters, 0 < cluster.2
  weight : (clusters.map Prod.snd).sum = (points.map Prod.snd).sum
  moment : moment clusters = moment points
  above : ∀ lower, (∀ point ∈ points, lower ≤ point.1) →
    ∀ cluster ∈ clusters, lower ≤ cluster.1
  below : ∀ upper, (∀ point ∈ points, point.1 ≤ upper) →
    ∀ cluster ∈ clusters, cluster.1 ≤ upper

namespace Summarizes

theorem refl {points : List (K × Nat)}
    (positive : ∀ point ∈ points, 0 < point.2) : Summarizes points points where
  positive := positive
  weight := rfl
  moment := rfl
  above _ bounded := bounded
  below _ bounded := bounded

theorem trans {clusters middle points : List (K × Nat)}
    (first : Summarizes clusters middle) (second : Summarizes middle points) :
    Summarizes clusters points where
  positive := first.positive
  weight := first.weight.trans second.weight
  moment := first.moment.trans second.moment
  above lower bounded := first.above lower (second.above lower bounded)
  below upper bounded := first.below upper (second.below upper bounded)

theorem of_perm {clusters points others : List (K × Nat)}
    (summary : Summarizes clusters points) (permuted : points.Perm others) :
    Summarizes clusters others where
  positive := summary.positive
  weight := summary.weight.trans (permuted.map Prod.snd).sum_eq
  moment := summary.moment.trans (moment_perm permuted)
  above lower bounded :=
    summary.above lower (fun point member =>
      bounded point (permuted.subset member))
  below upper bounded :=
    summary.below upper (fun point member =>
      bounded point (permuted.subset member))

theorem append {clusters clusters' points points' : List (K × Nat)}
    (first : Summarizes clusters points)
    (second : Summarizes clusters' points') :
    Summarizes (clusters ++ clusters') (points ++ points') where
  positive := by
    intro cluster member
    rcases List.mem_append.mp member with left | right
    · exact first.positive cluster left
    · exact second.positive cluster right
  weight := by
    simp only [List.map_append, List.sum_append, first.weight, second.weight]
  moment := by
    simp only [moment_append, first.moment, second.moment]
  above := by
    intro lower bounded cluster member
    rcases List.mem_append.mp member with left | right
    · exact first.above lower (fun point member =>
        bounded point (List.mem_append_left _ member)) cluster left
    · exact second.above lower (fun point member =>
        bounded point (List.mem_append_right _ member)) cluster right
  below := by
    intro upper bounded cluster member
    rcases List.mem_append.mp member with left | right
    · exact first.below upper (fun point member =>
        bounded point (List.mem_append_left _ member)) cluster left
    · exact second.below upper (fun point member =>
        bounded point (List.mem_append_right _ member)) cluster right

theorem ones_self (values : List K) :
    Summarizes (ones values) (ones values) := by
  apply refl
  intro point member
  obtain ⟨value, -, rfl⟩ := List.mem_map.mp member
  exact Nat.one_pos

end Summarizes

variable [IsStrictOrderedRing K]

section Join

variable {first second : K × Nat}

omit [LinearOrder K] [IsStrictOrderedRing K] in
private theorem join_mul_weight (nonzero : ((first.2 : K) + second.2) ≠ 0) :
    (join first second).1 * ((join first second).2 : K) =
      first.1 * first.2 + second.1 * second.2 := by
  rw [join, Nat.cast_add, div_mul_cancel₀ _ nonzero]

theorem weights_pos (positive : 0 < first.2) :
    (0 : K) < (first.2 : K) + second.2 := by
  have total : 0 < first.2 + second.2 := Nat.add_pos_left positive _
  rw [← Nat.cast_add]
  exact_mod_cast total

/-- The joint mean lies between the two. -/
theorem le_join (positive : 0 < first.2) (ordered : first.1 ≤ second.1) :
    first.1 ≤ (join first second).1 := by
  have heavier : first.1 * (second.2 : K) ≤ second.1 * second.2 :=
    mul_le_mul_of_nonneg_right ordered (Nat.cast_nonneg _)
  rw [join, le_div_iff₀ (weights_pos positive), mul_add]
  exact add_le_add_right heavier _

private theorem join_le (positive : 0 < first.2)
    (ordered : first.1 ≤ second.1) :
    (join first second).1 ≤ second.1 := by
  have heavier : first.1 * (first.2 : K) ≤ second.1 * first.2 :=
    mul_le_mul_of_nonneg_right ordered (Nat.cast_nonneg _)
  rw [join, div_le_iff₀ (weights_pos positive), mul_add]
  exact add_le_add_left heavier _

private theorem summarizes_join (positive : 0 < first.2)
    (ordered : first.1 ≤ second.1) :
    Summarizes [join first second] [first, second] where
  positive := by
    simpa [join] using Or.inl positive
  weight := by
    simp [join]
  moment := by
    simpa using join_mul_weight (weights_pos positive).ne'
  above := by
    intro lower bounded
    simpa using (bounded first (by simp)).trans (le_join positive ordered)
  below := by
    intro upper bounded
    simpa using (join_le positive ordered).trans (bounded second (by simp))

end Join

/-- Gathering summarizes sorted points and sorts the clusters. -/
theorem gather_spec (joins : Nat → Nat → Bool) {rest : List (K × Nat)}
    {cur : K × Nat} (before : Nat)
    (positive : ∀ point ∈ cur :: rest, 0 < point.2)
    (ascending : Ascending (cur :: rest)) :
    Summarizes (gather joins rest cur before) (cur :: rest) ∧
      Ascending (gather joins rest cur before) := by
  induction rest generalizing cur before with
  | nil =>
      exact ⟨Summarizes.refl positive, ascending⟩
  | cons point rest inductionHypothesis =>
      obtain ⟨least, tailAscending⟩ := List.pairwise_cons.mp ascending
      have curPositive := positive cur (by simp)
      have ordered := least point (by simp)
      have restPositive : ∀ later ∈ point :: rest, 0 < later.2 :=
        fun later member => positive later (List.mem_cons_of_mem _ member)
      rw [gather]
      split
      · -- the joint mean comes no later than the point, so the rest follows
        have joinPositive : ∀ later ∈ join cur point :: rest, 0 < later.2 := by
          intro later member
          rcases List.mem_cons.mp member with rfl | old
          · exact Nat.add_pos_left curPositive _
          · exact restPositive later (by simp [old])
        have joinAscending : Ascending (join cur point :: rest) := by
          obtain ⟨pointLeast, laterAscending⟩ :=
            List.pairwise_cons.mp tailAscending
          refine List.pairwise_cons.mpr ⟨?_, laterAscending⟩
          intro later member
          exact (join_le curPositive ordered).trans (pointLeast later member)
        obtain ⟨summary, sorted⟩ :=
          inductionHypothesis before joinPositive joinAscending
        have joined : Summarizes (join cur point :: rest)
            (cur :: point :: rest) :=
          (summarizes_join curPositive ordered).append
            (Summarizes.refl (fun later member =>
              restPositive later (List.mem_cons_of_mem _ member)))
        exact ⟨summary.trans joined, sorted⟩
      · obtain ⟨summary, sorted⟩ := inductionHypothesis (before + cur.2)
          restPositive tailAscending
        have alone : Summarizes [cur] [cur] :=
          Summarizes.refl (by simpa using curPositive)
        exact ⟨alone.append summary,
          List.pairwise_cons.mpr ⟨summary.above cur.1 least, sorted⟩⟩

/-! ## Clusters apart -/

omit [Field K] [LinearOrder K] [IsStrictOrderedRing K] in
/-- No two neighbours may be joined. -/
def Apart (joins : Nat → Nat → Bool) : Nat → List (K × Nat) → Prop
  | _, [] => True
  | _, [_] => True
  | before, first :: second :: rest =>
      joins before (before + (first.2 + second.2)) = false ∧
        Apart joins (before + first.2) (second :: rest)

end AetherEngine.Gathering
