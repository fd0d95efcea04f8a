import AetherEngine.Shard.RaftIngestion
import AetherEngine.Shard.SnapshotInstall

/-!
# The vector views of a Raft group

Every member of a Raft group keeps a vector index beside its keyword index, fed
by the same entries and snapshots.  Whatever the group goes through, the vector
index of every member has the documents that its keyword index has, slot by slot
with their texts and embeddings, and searches in the mode it began with.
-/

namespace AetherEngine.Shard

open AetherEngine.Common
open AetherEngine.Ranking
open AetherEngine.Traces

variable {real : Type}

/-! ## An index that keeps its mode -/

namespace VectorIndex

variable {engine : VectorEngine} {index : VectorIndex real engine}
variable {surviving : Std.ExtTreeMap String (FlightDocument real)}

/-- The index is aligned with the documents and searches in this mode. -/
def AlignedIn (mode : Bool) (index : VectorIndex real engine)
    (surviving : Std.ExtTreeMap String (FlightDocument real)) : Prop :=
  index.Aligned surviving ∧ index.quantizedMode = mode

private theorem alignedIn_insert (mode : Bool) :
    InsertKeeps (@AlignedIn real engine mode) := by
  rintro index surviving order doc ⟨aligned, inMode⟩
  obtain ⟨after, inserted, afterAligned⟩ := aligned.insert order doc
  refine ⟨after, inserted, afterAligned, ?_⟩
  rw [aligned.represents.insert_quantizedMode inserted, inMode]

theorem AlignedIn.remove {mode : Bool}
    (aligned : AlignedIn mode index surviving)
    (orders : Nat → IterationOrder String) (aircraft : String) :
    ∃ after present, index.remove orders aircraft = some (after, present) ∧
      AlignedIn mode after (surviving.erase aircraft) := by
  obtain ⟨aligned, inMode⟩ := aligned
  obtain ⟨after, present, removed, afterAligned⟩ :=
    aligned.remove orders aircraft
  refine ⟨after, present, removed, afterAligned, ?_⟩
  rcases index.remove_cases orders aircraft with
    ⟨-, same⟩ | ⟨slot, known, ⟨-, same⟩ | ⟨-, same⟩⟩
  · rw [removed] at same
    cases same
    exact inMode
  · rw [removed] at same
    cases same
    exact inMode
  · -- a rebuild starts from a new index in the mode of the old one
    obtain ⟨rebuilt, filled, -, rebuiltMode⟩ :=
      (alignedIn_insert mode).insertAll
        ⟨aligned_empty mode, rfl⟩ orders
        (index.bury aircraft slot).liveDocuments
    have rebuiltIs : (index.bury aircraft slot).rebuild orders =
        some rebuilt := by
      rw [rebuild, ← filled, ← inMode]
      rfl
    rw [removed, rebuiltIs] at same
    cases same
    exact rebuiltMode

end VectorIndex

section Mirrored

variable {vectors : VectorSide real} {rules : TextRules}
variable {mirror : VectorMirror vectors}

/-- A view that is started anew stands for no documents. -/
structure StartsEmpty (mirror : VectorMirror vectors) : Prop where
  new : mirror.represents vectors.new ∅
  restart : ∀ state docs, mirror.represents state docs →
    mirror.represents (vectors.restart state) ∅

namespace HeldStore

variable {held : HeldStore rules vectors}

private theorem mirrored_new (empty : StartsEmpty mirror) :
    (HeldStore.new : HeldStore rules vectors).Mirrored mirror :=
  empty.new

theorem Mirrored.replaceAll (mirrored : held.Mirrored mirror)
    (empty : StartsEmpty mirror) (passes : Nat → Passes)
    (docs : List (FlightDocument real)) :
    (held.replaceAll passes docs).Mirrored mirror := by
  obtain ⟨after, replaced, holds⟩ :=
    ShardStore.holds_replaceAll rules passes held.store docs
  simp only [Mirrored, contents, HeldStore.replaceAll, replaced,
    Option.get_some]
  rw [holds.contents_eq, ShardStore.vector_insertAll passes docs replaced]
  exact VectorMirror.foldl_insert (empty.restart _ _ mirrored) docs

theorem Mirrored.perform (mirrored : held.Mirrored mirror)
    (passes : Nat → Passes) (command : ShardCommand real) :
    (held.perform passes command).Mirrored mirror := by
  unfold HeldStore.perform
  cases command.kind with
  | none =>
      exact mirrored
  | some kind =>
      cases kind with
      | batch request => exact mirrored.insertAll passes request.documents
      | evict request =>
          exact mirrored.evictVshard passes request.vshard request.v

end HeldStore

namespace RaftGroup

variable {Member : Type} [DecidableEq Member]
variable {before after group : RaftGroup rules vectors Member}
variable {event : RaftGroupEvent real Member}

theorem mirrored_setMember {member : Member} {now : GroupMember rules vectors}
    (mirrored : ∀ other, (before.member other).copy.state.Mirrored mirror)
    (mirroredNow : now.copy.state.Mirrored mirror) :
    ∀ other,
      ((before.setMember member now).member other).copy.state.Mirrored
        mirror := by
  intro other
  dsimp only [RaftGroup.setMember]
  split
  · exact mirroredNow
  · exact mirrored other

private theorem mirrored_of_moves (empty : StartsEmpty mirror)
    (mirrored : ∀ member, (before.member member).copy.state.Mirrored mirror)
    (moves : before.Moves event after) :
    ∀ member, (after.member member).copy.state.Mirrored mirror := by
  cases moves with
  | acts member event now moved =>
      exact mirrored_setMember mirrored (moved.copy ▸ mirrored member)
  | propose member | written member | proposeEviction member
  | evicted member =>
      exact mirrored_setMember mirrored (mirrored member)
  | commit | snapshot =>
      exact mirrored
  | applyNext member passes command next =>
      exact mirrored_setMember mirrored
        ((mirrored member).perform passes command)
  | install member taken passes snapshot held =>
      exact mirrored_setMember mirrored
        ((mirrored member).replaceAll empty passes _)
  | restart member =>
      exact mirrored_setMember mirrored (HeldStore.mirrored_new empty)

/-- Both views of every member's store have the same documents. -/
theorem mirrored (empty : StartsEmpty mirror) {ownership : Member → Ownership}
    {events : List (RaftGroupEvent real Member)}
    (leads : Leads step (begin ownership) events group) :
    ∀ member, (group.member member).copy.state.Mirrored mirror := by
  refine Leads.invariant
    (fun _ (group : RaftGroup rules vectors Member) => ∀ member,
      (group.member member).copy.state.Mirrored mirror)
    (fun _ => HeldStore.mirrored_new empty) ?_ leads
  exact fun _ _ _ _ mirrored stepped =>
    mirrored_of_moves empty mirrored (moves_of_step stepped)

end RaftGroup

end Mirrored

end AetherEngine.Shard
