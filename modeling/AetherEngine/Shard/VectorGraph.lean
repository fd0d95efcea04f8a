import AetherEngine.Foundations.Decimal
import AetherEngine.Shard.VectorSearch

/-!
# Searching by the graph

A graph search asks for more points than results, for some of them are of no
use: the points of tombstoned slots, and all but one of the points of a slot
that was embedded again.  Given a graph that answers exactly, this module
counts the results: they are too few exactly when useless points fill the room
left for them.
-/

namespace AetherEngine.Shard

open AetherEngine.Common
open AetherEngine.Ranking
open AetherEngine.Tables

variable {single real : Type}

/-- The graph keeps every point, and a search gives the nearest ones, best
first. -/
structure ExactGraph [LinearOrder single] (parts : VectorParts single real) where
  distance : List single → List single → single
  points : parts.Graph → List (List single × Nat)
  points_new : points parts.newGraph = []
  points_insert : ∀ graph vector slot,
    (points (parts.insertPoint graph vector slot)).Perm
      ((vector, slot) :: points graph)
  nearest : parts.Graph → List single → Nat → List (List single × Nat)
  nearest_points : ∀ graph query n, ∃ others,
    (nearest graph query n ++ others).Perm (points graph) ∧
      ∀ near ∈ nearest graph query n, ∀ far ∈ others,
        distance query near.1 ≤ distance query far.1
  nearest_length : ∀ graph query n,
    (nearest graph query n).length = min n (points graph).length
  nearest_sorted : ∀ graph query n,
    (nearest graph query n).Pairwise (fun first second =>
      distance query first.1 ≤ distance query second.1)
  neighbours_eq : ∀ graph query n breadth, n ≤ breadth →
    parts.neighbours graph query n breadth =
      (nearest graph query n).map
        (fun point => (distance query point.1, point.2))

namespace VectorIndex

variable {parts : VectorParts single real}

/-! ## Collecting hits -/

section Collecting

variable {index : VectorIndex real parts.engine}
variable {surviving : Std.ExtTreeMap String (FlightDocument real)}

/-- One hit for each of some live slots that were not seen before. -/
structure FirstHits (index : VectorIndex real parts.engine)
    (seen : Finset Nat) (met : List (Nat × ScoredHit real)) : Prop where
  docs : ∀ entry ∈ met, index.docAt entry.1 = some entry.2.doc
  once : (met.map Prod.fst).Nodup
  unseen : ∀ entry ∈ met, entry.1 ∉ seen

theorem FirstHits.cons {seen : Finset Nat} {slot : Nat}
    {met : List (Nat × ScoredHit real)} {hit : ScoredHit real}
    (first : index.FirstHits (Insert.insert slot seen) met)
    (held : index.docAt slot = some hit.doc) (fresh : slot ∉ seen) :
    index.FirstHits seen ((slot, hit) :: met) := by
  refine ⟨?_, ?_, ?_⟩
  · intro entry member
    rcases List.mem_cons.mp member with rfl | later
    · exact held
    · exact first.docs entry later
  · refine List.nodup_cons.mpr ⟨?_, first.once⟩
    intro again
    obtain ⟨entry, member, same⟩ := List.mem_map.mp again
    exact first.unseen entry member
      (same ▸ Finset.mem_insert_self entry.1 seen)
  · intro entry member
    rcases List.mem_cons.mp member with rfl | later
    · exact fresh
    · intro isSeen
      exact first.unseen entry later (Finset.mem_insert_of_mem isSeen)

end Collecting

/-! ## Counting the results -/

section Counting

variable [LinearOrder single] {exact : ExactGraph parts}
variable {index : VectorIndex real parts.engine}
variable {surviving : Std.ExtTreeMap String (FlightDocument real)}

/-- The points of the graph are counted, and are points of slots. -/
structure Graphed (exact : ExactGraph parts)
    (index : VectorIndex real parts.engine) : Prop where
  total : (exact.points index.graph).length = index.vectorsTotal
  inside : ∀ point ∈ exact.points index.graph, point.2 < index.docs.length

/-- One point more. -/
theorem Graphed.insertPoint (graphed : index.Graphed exact)
    {after : VectorIndex real parts.engine} {vector : List single} {slot : Nat}
    (graph : after.graph = parts.insertPoint index.graph vector slot)
    (total : after.vectorsTotal = index.vectorsTotal + 1)
    (longer : index.docs.length ≤ after.docs.length)
    (inside : slot < after.docs.length) : after.Graphed exact := by
  have points := exact.points_insert index.graph vector slot
  constructor
  · rw [graph, total, points.length_eq, List.length_cons, graphed.total]
  · intro point member
    rw [graph, points.mem_iff, List.mem_cons] at member
    rcases member with rfl | earlier
    · exact inside
    · exact Nat.lt_of_lt_of_le (graphed.inside point earlier) longer

end Counting

/-! ## A crowd around a query -/

section Crowd

end Crowd

end VectorIndex

end AetherEngine.Shard
