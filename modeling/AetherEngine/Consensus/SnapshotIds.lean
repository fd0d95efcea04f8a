import AetherEngine.Consensus.SnapshotFiles

/-!
# Snapshot ids in a raft group

A process numbers the snapshots it builds from one, and the number is all that
the snapshot id carries.  The counter starts again with the process, and every
member has its own.  In a group whose members build, install, persist and
restart in any order, an id identifies a snapshot as long as one process has
built all snapshots so far.
-/

namespace AetherEngine.Consensus

open AetherEngine.Frames
open AetherEngine.Runs

universe u

variable {state : Type u}

/-! ## The group -/

/-- The members by node id, and every snapshot that was built in the group, in
order. -/
structure RaftGroup (state : Type u) (codec : SnapshotCodec) where
  members : UInt64 → DurableStore state codec
  built : List StoredSnapshot

namespace RaftGroup

variable {codec : SnapshotCodec} (app : StateMachineApp state) (fresh : state)

/-- Every member starts on an empty directory. -/
def start : RaftGroup state codec where
  members _ := DurableStore.start app fresh
  built := []

/-- One member makes a step. -/
def step (group : RaftGroup state codec) (move : UInt64 × DurableStep) :
    RaftGroup state codec :=
  let later := (group.members move.1).step app fresh move.2
  { members := Function.update group.members move.1 later
    built :=
      match move.2 with
      | .build _ => group.built ++ later.memory.snapshot.toList
      | _ => group.built }

/-- Two snapshots with one id were built at the same position with the same
data. -/
def IdsIdentify (group : RaftGroup state codec) : Prop :=
  ∀ first ∈ group.built, ∀ second ∈ group.built,
    first.info.snapshotId = second.info.snapshotId →
      first.info.lastLogId = second.info.lastLogId ∧ first.data = second.data

/-- A process that builds a snapshot has built all those before. -/
def BuiltAlone (group : RaftGroup state codec) :
    UInt64 × DurableStep → Prop
  | (member, .build _) =>
      (group.members member).memory.snapshotSeq = group.built.length
  | _ => True

instance (group : RaftGroup state codec) :
    (move : UInt64 × DurableStep) → Decidable (group.BuiltAlone move)
  | (member, .build _) =>
      inferInstanceAs
        (Decidable ((group.members member).memory.snapshotSeq = _))
  | (_, .apply _) => instDecidableTrue
  | (_, .install _) => instDecidableTrue
  | (_, .advance _ _) => instDecidableTrue
  | (_, .restart _) => instDecidableTrue

/-! ## Numbering -/

/-- The id with a number. -/
def numberedId (number : Nat) : String :=
  "snap-" ++ toString number

private theorem numberedId_injective : Function.Injective numberedId := by
  intro left right same
  rw [numberedId, numberedId, ← String.toList_inj, String.toList_append,
    String.toList_append, List.append_cancel_left_eq, String.toList_inj] at same
  exact Decimal.toString_injective same

/-- The snapshots of the group are numbered one after the other. -/
def Numbered (group : RaftGroup state codec) : Prop :=
  group.built.map (fun snapshot => snapshot.info.snapshotId) =
    (List.range group.built.length).map fun earlier => numberedId (earlier + 1)

variable {app fresh} {group : RaftGroup state codec}

/-- Consecutive numbers do not repeat. -/
theorem Numbered.idsIdentify (numbered : group.Numbered) :
    group.IdsIdentify := by
  have distinct :
      (group.built.map fun snapshot => snapshot.info.snapshotId).Nodup := by
    rw [numbered]
    refine List.nodup_range.map ?_
    intro left right same
    have sameNumber := numberedId_injective same
    omega
  intro first firstBuilt second secondBuilt sameId
  have same : first = second :=
    List.inj_on_of_nodup_map distinct firstBuilt secondBuilt sameId
  rw [same]
  exact ⟨rfl, rfl⟩

/-- What a build adds to the group. -/
theorem built_step_build (member : UInt64) (data : Bytes) :
    (group.step app fresh (member, .build data)).built =
      group.built ++
        [{ info :=
            { lastLogId := (group.members member).memory.lastApplied
              lastMembership := (group.members member).memory.membership
              snapshotId :=
                numberedId ((group.members member).memory.snapshotSeq + 1) }
           data := data }] := by
  have kept : ∀ store : DurableStore state codec,
      store.beginPersist.memory = store.memory := by
    intro store
    unfold DurableStore.beginPersist
    split
    · split <;> rfl
    · rfl
  simp only [step, DurableStore.step, kept, StateMachineStore.buildInfo,
    Option.toList_some]
  rfl

theorem Numbered.step (numbered : group.Numbered)
    {move : UInt64 × DurableStep} (alone : group.BuiltAlone move) :
    (group.step app fresh move).Numbered := by
  obtain ⟨member, next⟩ := move
  cases next with
  | build data =>
      have counter : (group.members member).memory.snapshotSeq =
          group.built.length :=
        alone
      rw [Numbered, built_step_build, List.map_append, numbered,
        List.length_append, List.length_singleton, List.range_succ,
        List.map_append, counter]
      rfl
  | apply entry => exact numbered
  | install received => exact numbered
  | advance position outcome => exact numbered
  | restart crashed => exact numbered

/-- A process that has not built all of the group's snapshots gives one the id
of an earlier one. -/
theorem build_reuses_id (numbered : group.Numbered) {member : UInt64}
    (others : (group.members member).memory.snapshotSeq < group.built.length)
    (data : Bytes) :
    ∃ earlier ∈ group.built, ∃ latest,
      (group.step app fresh (member, .build data)).built =
          group.built ++ [latest] ∧
        latest.info.snapshotId = earlier.info.snapshotId := by
  have sameId :
      (group.built.map fun snapshot => snapshot.info.snapshotId)[
          (group.members member).memory.snapshotSeq]? =
        some (numberedId
          ((group.members member).memory.snapshotSeq + 1)) := by
    rw [numbered, List.getElem?_map, List.getElem?_range others]
    rfl
  rw [List.getElem?_map, Option.map_eq_some_iff] at sameId
  obtain ⟨earlier, found, earlierId⟩ := sameId
  exact ⟨earlier, List.mem_of_getElem? found, _, built_step_build member data,
    earlierId.symm⟩

theorem snapshot_ids_identify (app : StateMachineApp state) (fresh : state)
    (codec : SnapshotCodec) (run : List (UInt64 × DurableStep))
    (alone : EachStep (step app fresh) BuiltAlone
      (start app fresh : RaftGroup state codec) run) :
    Throughout (step app fresh) IdsIdentify
      (start app fresh : RaftGroup state codec) run := by
  have kept : ∀ (current : RaftGroup state codec) move, current.Numbered →
      current.BuiltAlone move → (current.step app fresh move).Numbered :=
    fun _ _ numbered isAlone => numbered.step isAlone
  have begins : (start app fresh : RaftGroup state codec).Numbered := rfl
  exact throughout_mono (fun _ numbered => numbered.idsIdentify)
    (throughout_of_eachStep kept begins alone)

/-! ### Two members -/

/-- One member builds twice, and the other installs what it built. -/
def oneBuilder : List (UInt64 × DurableStep) :=
  [(1, .apply (DurableStore.registerEntry 5)), (1, .build [7]),
    (2, .install (DurableStore.registerSnapshot 5)),
    (1, .apply (DurableStore.registerEntry 6)), (1, .build [8])]

theorem snapshot_ids_identify_oneBuilder :
    (Runs.final (step System.registerApp [])
        (start System.registerApp [] : RaftGroup Bytes bincodeSnapshots)
        oneBuilder).built.length = 2 ∧
      Throughout (step System.registerApp []) IdsIdentify
        (start System.registerApp [] : RaftGroup Bytes bincodeSnapshots)
        oneBuilder :=
  ⟨by decide +kernel,
    snapshot_ids_identify System.registerApp [] bincodeSnapshots oneBuilder
      (by decide +kernel)⟩

/-- A member builds, persists and restarts, applies another entry and builds
again. -/
def restartedBuilder : List DurableStep :=
  [.apply (DurableStore.registerEntry 5), .build [7]] ++
    DurableStore.persistAll 0 0 ++
      [.restart ⟨fun _ => none, .asStored⟩,
        .apply (DurableStore.registerEntry 6), .build [8]]

/-- Both snapshots have the first id. -/
theorem restarted_builder_reuses_id :
    ¬ Throughout (step System.registerApp []) IdsIdentify
      (start System.registerApp [] : RaftGroup Bytes bincodeSnapshots)
      (restartedBuilder.map (Prod.mk 1)) := by
  intro always
  have identify := final_of_throughout always
  have two :
      (Runs.final (step System.registerApp [])
        (start System.registerApp [] : RaftGroup Bytes bincodeSnapshots)
        (restartedBuilder.map (Prod.mk 1))).built =
      [⟨⟨some ⟨⟨1, 1⟩, 5⟩, {}, "snap-1"⟩, [7]⟩,
        ⟨⟨some ⟨⟨1, 1⟩, 6⟩, {}, "snap-1"⟩, [8]⟩] := by
    decide +kernel
  rw [IdsIdentify, two] at identify
  have same := identify _ List.mem_cons_self _
    (List.mem_cons_of_mem _ List.mem_cons_self) rfl
  exact absurd same.2 (by decide)

end RaftGroup

end AetherEngine.Consensus
