import Mathlib.Algebra.BigOperators.Group.List.Basic
import Mathlib.Algebra.Order.Monoid.Defs

/-!
# Greedy clustering

Points are collected from the left: a cluster takes the next point in while a
bound on the weights to its left and up to its end allows it.  What a point is,
how two of them are joined and in what their weights are measured is left open.

What joining keeps, clustering keeps.  If a cluster may also reach less far than
it may reach, clusters that were collected once stay as they are: a boundary
drawn before one point is a boundary before the whole cluster of that point.
-/

namespace AetherEngine.Clustering

universe u v

variable {point : Type u} {weight : Type v}

theorem pairwise_of_length_le_one {points : List point}
    (short : points.length ≤ 1) (related : point → point → Prop) :
    points.Pairwise related := by
  cases points with
  | nil =>
      exact List.Pairwise.nil
  | cons point rest =>
      have alone : rest = [] := by
        simpa using short
      rw [alone]
      exact List.pairwise_singleton _ _

section Collect

variable [Add weight] (weightOf : point → weight)
variable (join : point → point → point) (joins : weight → weight → Bool)

/-- Collect the points that follow a cluster; `before` is the weight to its
left. -/
def collect : List point → point → weight → List point
  | [], cur, _ => [cur]
  | next :: rest, cur, before =>
      if joins before (before + (weightOf cur + weightOf next)) then
        collect rest (join cur next) before
      else
        cur :: collect rest next (before + weightOf cur)

/-- No two neighbours may be joined. -/
def Apart : weight → List point → Prop
  | _, [] => True
  | _, [_] => True
  | before, first :: second :: rest =>
      joins before (before + (weightOf first + weightOf second)) = false ∧
        Apart (before + weightOf first) (second :: rest)

variable {weightOf join joins}

theorem apart_of_length_le_one {points : List point}
    (short : points.length ≤ 1) (before : weight) :
    Apart weightOf joins before points := by
  cases points with
  | nil =>
      exact trivial
  | cons point rest =>
      have alone : rest = [] := by
        simpa using short
      rw [alone]
      exact trivial

theorem collect_of_apart {rest : List point} {cur : point} {before : weight}
    (apart : Apart weightOf joins before (cur :: rest)) :
    collect weightOf join joins rest cur before = cur :: rest := by
  induction rest generalizing cur before with
  | nil =>
      rfl
  | cons next rest inductionHypothesis =>
      rw [collect, apart.1, if_neg Bool.false_ne_true,
        inductionHypothesis apart.2]

/-- What joining keeps holds of the clusters. -/
theorem forall_mem_collect {good : point → Prop}
    (kept : ∀ {first second}, good first → good second →
      good (join first second))
    {rest : List point} {cur : point} (before : weight)
    (all : ∀ point ∈ cur :: rest, good point) :
    ∀ cluster ∈ collect weightOf join joins rest cur before,
      good cluster := by
  induction rest generalizing cur before with
  | nil =>
      exact all
  | cons next rest inductionHypothesis =>
      obtain ⟨curGood, restGood⟩ := List.forall_mem_cons.mp all
      obtain ⟨nextGood, laterGood⟩ := List.forall_mem_cons.mp restGood
      rw [collect]
      split
      · exact inductionHypothesis before
          (List.forall_mem_cons.mpr ⟨kept curGood nextGood, laterGood⟩)
      · exact List.forall_mem_cons.mpr
          ⟨curGood, inductionHypothesis _ restGood⟩

/-- An order that joining respects on both sides is kept. -/
theorem pairwise_collect (good : point → Prop) {le : point → point → Prop}
    (kept : ∀ {first second}, good first → good second →
      good (join first second))
    (above : ∀ {lower first second}, good first → good second →
      le lower first → le lower second → le lower (join first second))
    (below : ∀ {first second upper}, good first → good second →
      le first upper → le second upper → le (join first second) upper)
    {rest : List point} {cur : point} (before : weight)
    (all : ∀ point ∈ cur :: rest, good point)
    (ordered : (cur :: rest).Pairwise le) :
    (collect weightOf join joins rest cur before).Pairwise le := by
  induction rest generalizing cur before with
  | nil =>
      exact ordered
  | cons next rest inductionHypothesis =>
      obtain ⟨least, later⟩ := List.pairwise_cons.mp ordered
      obtain ⟨nextLeast, latest⟩ := List.pairwise_cons.mp later
      obtain ⟨curGood, restGood⟩ := List.forall_mem_cons.mp all
      obtain ⟨nextGood, laterGood⟩ := List.forall_mem_cons.mp restGood
      obtain ⟨-, leastLater⟩ := List.forall_mem_cons.mp least
      rw [collect]
      split
      · apply inductionHypothesis
        · exact List.forall_mem_cons.mpr ⟨kept curGood nextGood, laterGood⟩
        · refine List.pairwise_cons.mpr ⟨?_, latest⟩
          intro upper member
          exact below curGood nextGood (leastLater upper member)
            (nextLeast upper member)
      · refine List.pairwise_cons.mpr
          ⟨?_, inductionHypothesis _ restGood later⟩
        -- every cluster of the rest lies above the cluster that is closed
        have bounded : ∀ cluster ∈
            collect weightOf join joins rest next (before + weightOf cur),
            good cluster ∧ le cur cluster := by
          apply forall_mem_collect
          · intro first second firstGood secondGood
            exact ⟨kept firstGood.1 secondGood.1,
              above firstGood.1 secondGood.1 firstGood.2 secondGood.2⟩
          · intro other member
            exact ⟨restGood other member, least other member⟩
        exact fun cluster member => (bounded cluster member).2

end Collect

section Weights

variable {weightOf : point → weight} {join : point → point → point}
variable {joins : weight → weight → Bool}

/-- No weight is lost. -/
theorem sum_collect [AddMonoid weight] (joins : weight → weight → Bool)
    (added : ∀ first second,
      weightOf (join first second) = weightOf first + weightOf second)
    (rest : List point) (cur : point) (before : weight) :
    ((collect weightOf join joins rest cur before).map weightOf).sum =
      ((cur :: rest).map weightOf).sum := by
  induction rest generalizing cur before with
  | nil =>
      rfl
  | cons next rest inductionHypothesis =>
      rw [collect]
      split
      · rw [inductionHypothesis]
        simp only [List.map_cons, List.sum_cons, added, add_assoc]
      · simp only [List.map_cons, List.sum_cons, inductionHypothesis]

variable [AddCommMonoid weight] [PartialOrder weight]
variable [IsOrderedAddMonoid weight]

/-- The first cluster is at least as heavy as the one that was started
with. -/
theorem exists_collect_eq_cons (joins : weight → weight → Bool)
    (added : ∀ first second,
      weightOf (join first second) = weightOf first + weightOf second)
    {rest : List point} (nonneg : ∀ point ∈ rest, 0 ≤ weightOf point)
    (cur : point) (before : weight) :
    ∃ head tail,
      collect weightOf join joins rest cur before = head :: tail ∧
        weightOf cur ≤ weightOf head := by
  induction rest generalizing cur with
  | nil =>
      exact ⟨cur, [], rfl, le_rfl⟩
  | cons next rest inductionHypothesis =>
      obtain ⟨nextNonneg, laterNonneg⟩ := List.forall_mem_cons.mp nonneg
      rw [collect]
      split
      · obtain ⟨head, tail, collected, heavier⟩ :=
          inductionHypothesis laterNonneg (join cur next)
        rw [added] at heavier
        exact ⟨head, tail, collected,
          (le_add_of_nonneg_right nextNonneg).trans heavier⟩
      · exact ⟨cur, _, rfl, le_rfl⟩

/-- A cluster may reach less far, too, so the clusters are apart. -/
theorem apart_collect
    (added : ∀ first second,
      weightOf (join first second) = weightOf first + weightOf second)
    (shorter : ∀ {left right right' : weight}, left ≤ right →
      right ≤ right' → joins left right' = true → joins left right = true)
    {rest : List point} {cur : point} (before : weight)
    (nonneg : ∀ point ∈ cur :: rest, 0 ≤ weightOf point) :
    Apart weightOf joins before
      (collect weightOf join joins rest cur before) := by
  induction rest generalizing cur before with
  | nil =>
      exact trivial
  | cons next rest inductionHypothesis =>
      obtain ⟨curNonneg, restNonneg⟩ := List.forall_mem_cons.mp nonneg
      obtain ⟨nextNonneg, laterNonneg⟩ := List.forall_mem_cons.mp restNonneg
      rw [collect]
      split
      · apply inductionHypothesis
        refine List.forall_mem_cons.mpr ⟨?_, laterNonneg⟩
        rw [added]
        exact add_nonneg curNonneg nextNonneg
      · rename_i refused
        obtain ⟨head, tail, collected, heavier⟩ :=
          exists_collect_eq_cons joins added laterNonneg next
            (before + weightOf cur)
        have later := inductionHypothesis (before + weightOf cur) restNonneg
        rw [collected] at later ⊢
        refine ⟨Bool.eq_false_iff.mpr ?_, later⟩
        intro joined
        refine refused (shorter ?_ ?_ joined)
        · exact le_add_of_nonneg_right (add_nonneg curNonneg nextNonneg)
        · exact add_le_add_right (add_le_add_right heavier _) _

end Weights

end AetherEngine.Clustering
