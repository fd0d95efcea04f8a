import AetherEngine.Coordinator.AggSharding

/-!
# Which replies the merge of aggregates survives

A reply is filtered by weight and never by mean, and every sort by mean panics
on a mean that compares with nothing.  Whatever is brought, more than one part
of positive weight must not bring such a mean.  That is enough as long as sums
overflow on one side of zero only: then no mean becomes one that compares with
nothing.
-/

namespace AetherEngine.Coordinator

open AetherEngine.Common
open AetherEngine.Common.TDigest (Heavy Sortable WeightLaws)
open AetherEngine.Doubles
open AetherEngine.Floats
open AetherEngine.Ranking
open AetherEngine.Rounding
open AetherEngine.Shard

section Merge

variable {real : Type} (floats : DigestFloats real)

/-- The digests of the replies, in the order they are merged. -/
def digests (partials : List (AggregatePartial real)) :
    List (Option (DigestMessage real)) :=
  partials.map AggregatePartial.digest

/-- The parts of positive weight that a digest brings. -/
def brought : Option (DigestMessage real) → List (Centroid real)
  | some parts =>
      TDigest.heavyParts floats parts.centroidMean parts.centroidWeight
  | none => []

variable {floats}

/-- Merging a digest compresses what it brings with what was there. -/
theorem mergeDigest_cases {digest after : TDigest real}
    (empty : digest.buffer = []) {message : Option (DigestMessage real)}
    (merged : mergeDigest floats digest message = some after) :
    (message = none ∧ after = digest) ∨
    ∃ united : TDigest real, united.buffer = [] ∧
      united.centroids.Perm (digest.centroids ++ brought floats message) ∧
      TDigest.compress floats united = some after := by
  cases message with
  | none =>
      exact Or.inl ⟨rfl, (Option.some_inj.mp merged).symm⟩
  | some parts =>
      obtain ⟨shard, restored, compressed⟩ :=
        Option.bind_eq_some_iff.mp merged
      obtain ⟨permuted, shardEmpty⟩ := TDigest.fromParts_cases restored
      refine Or.inr ⟨_, ?_, ?_, compressed⟩
      · exact List.append_eq_nil_iff.mpr ⟨empty, shardEmpty⟩
      · exact permuted.append_left digest.centroids

variable (floats) in
/-- The digest has taken in exactly these parts. -/
structure Unites (digest : TDigest real) (taken : List (Centroid real)) :
    Prop where
  buffer : digest.buffer = []
  heavy : ∀ point ∈ digest.centroids, Heavy floats point.weight
  /-- One part alone is kept as it is. -/
  few : taken.length ≤ 1 → digest.centroids.Perm taken
  /-- Several parts leave something. -/
  keeps : digest.centroids = [] → taken = []

private theorem brought_heavy (message : Option (DigestMessage real)) :
    ∀ point ∈ brought floats message, Heavy floats point.weight := by
  cases message with
  | none =>
      exact List.forall_mem_nil _
  | some parts =>
      exact TDigest.heavyParts_heavy parts.centroidMean parts.centroidWeight

variable {digest after : TDigest real} {taken : List (Centroid real)}
variable {message : Option (DigestMessage real)}

/-- What is sorted step by step could be sorted at once. -/
theorem Unites.sortable (unites : Unites floats digest taken)
    (takenSortable : Sortable floats taken)
    (sortable : Sortable floats
      (digest.centroids ++ brought floats message)) :
    Sortable floats (taken ++ brought floats message) := by
  by_cases nothing : brought floats message = []
  · rw [nothing, List.append_nil]
    exact takenSortable
  by_cases alone : taken.length ≤ 1
  · have permuted := (unites.few alone).append_right (brought floats message)
    rw [← TDigest.sortable_perm permuted]
    exact sortable
  · have more := List.length_pos_of_ne_nil nothing
    have kept : digest.centroids ≠ [] := by
      intro none
      exact alone (by simp [unites.keeps none])
    have centroids := List.length_pos_of_ne_nil kept
    rw [Sortable, List.length_append] at sortable
    rcases sortable with short | comparable
    · omega
    · rcases takenSortable with short | takenComparable
      · exact absurd short alone
      · exact Or.inr (List.forall_mem_append.mpr ⟨takenComparable,
          (List.forall_mem_append.mp comparable).2⟩)

theorem Unites.merge (laws : WeightLaws floats)
    (unites : Unites floats digest taken)
    (merged : mergeDigest floats digest message = some after) :
    Unites floats after (taken ++ brought floats message) := by
  rcases mergeDigest_cases unites.buffer merged with
    ⟨rfl, rfl⟩ | ⟨united, empty, permuted, compressed⟩
  · rw [brought, List.append_nil]
    exact unites
  · have unitedHeavy :
        ∀ point ∈ united.centroids, Heavy floats point.weight := by
      intro point member
      exact List.forall_mem_append.mpr
        ⟨unites.heavy, brought_heavy message⟩ point (permuted.subset member)
    obtain ⟨heavy, kept⟩ := laws.compress empty unitedHeavy compressed
    refine ⟨(TDigest.compress_cases empty compressed).1, heavy, ?_, ?_⟩
    · intro short
      have prior : taken.length ≤ 1 := by
        rw [List.length_append] at short
        omega
      have all := permuted.trans ((unites.few prior).append_right _)
      rcases (TDigest.compress_cases empty compressed).2 with
        ⟨-, same⟩ | ⟨first, rest, -, several, -⟩
      · rw [same]
        exact all
      · rw [all.length_eq] at several
        omega
    · intro none
      have nothing := kept none
      rw [nothing] at permuted
      obtain ⟨centroids, more⟩ :=
        List.append_eq_nil_iff.mp permuted.nil_eq.symm
      rw [unites.keeps centroids, more, List.append_nil]

section Standing

variable {limit : Nat} {stands : Nat → Centroid real → Prop}
variable {accounts : real → Centroid real → Prop}
variable (standing : TDigest.Standing floats limit stands accounts)

end Standing

end Merge

/-! ## In 64-bit numbers -/

end AetherEngine.Coordinator
