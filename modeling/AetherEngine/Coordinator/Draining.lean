import AetherEngine.Coordinator.Control
import AetherEngine.Coordinator.ShardMap

/-!
# The drain marker

An operator marks a node for removal from its group; the marker is to stay for
as long as the node is registered.  A registry that owns its drain set clears
the marker when it reaps an entry of the node.  A node may have several entries
and a heartbeat refreshes only one of them, so the marker can go while the node
stays.  It lasts exactly as long as no reap drops one entry of the node and keeps
another.
-/

namespace AetherEngine.Coordinator

open AetherEngine.Runs
open AetherEngine.Tables

namespace Registry

/-! ## What a view shows -/

/-- Every view that lists the node shows it as draining. -/
def ShownDraining (nodeId : String) (registry : Registry) : Prop :=
  ∀ passes now, ∀ node ∈ registry.snapshot passes now,
    node.nodeId = nodeId → node.draining = true

private theorem knowsNode_iff (registry : Registry) (nodeId : String) :
    registry.knowsNode nodeId = true ↔ nodeId ∈ registry.nodeIds := by
  simp [knowsNode, nodeIds, List.any_eq_true]

private theorem draining_of_mem_snapshot {passes : RegistryPasses}
    {registry : Registry} {now : Nat} {node : NodeSnapshot}
    (listed : node ∈ registry.snapshot passes now) :
    node.draining = registry.draining.contains node.nodeId := by
  rw [snapshot, (Ranking.sortBy_perm _ _).mem_iff, List.mem_append,
    List.mem_map, List.mem_flatMap] at listed
  rcases listed with ⟨entry, -, rfl⟩ | ⟨group, -, member⟩
  · rfl
  · obtain ⟨info, -, rfl⟩ := List.mem_map.mp member
    rfl

/-- A listed node is shown as draining exactly if it is marked. -/
theorem shownDraining_iff {registry : Registry} {nodeId : String}
    (known : registry.knowsNode nodeId = true) :
    ShownDraining nodeId registry ↔ nodeId ∈ registry.draining := by
  constructor
  · intro shown
    have passes : RegistryPasses := ⟨.asStored, .asStored⟩
    rw [knowsNode_iff,
      ← (nodeIds_snapshot passes registry 0).mem_iff] at known
    obtain ⟨node, listed, rfl⟩ := List.mem_map.mp known
    have marked := shown passes 0 node listed rfl
    rwa [draining_of_mem_snapshot listed] at marked
  · intro marked passes now node listed equality
    subst equality
    rw [draining_of_mem_snapshot listed]
    exact marked

/-! ## One reap -/

/-- A reap keeps exactly the entries that are not dead. -/
theorem mem_entries_reapDead (passes : RegistryPasses) {registry : Registry}
    {now timeout : Nat} {shard : UInt32} {info : NodeInfo} :
    (shard, info) ∈ (registry.reapDead passes now timeout).1.entries ↔
      (shard, info) ∈ registry.entries ∧ isDead now timeout info = false := by
  rw [mem_entries_iff_mem_nodes, mem_entries_iff_mem_nodes, cellAt_reapDead,
    ShardCell.nodes_reap, List.mem_filter, Bool.not_eq_true']

/-- What a reap returns are the dead entries. -/
theorem mem_reaped (passes : RegistryPasses) {registry : Registry}
    {now timeout : Nat} {info : NodeInfo} :
    info ∈ (registry.reapDead passes now timeout).2 ↔
      (∃ shard, (shard, info) ∈ registry.entries) ∧
        isDead now timeout info = true := by
  rw [(reaped_perm passes registry now timeout).mem_iff]
  simp [and_assoc]

private theorem mem_foldl_erase {removed : List NodeInfo}
    {draining : Std.ExtTreeSet String} {nodeId : String} :
    nodeId ∈ removed.foldl
        (fun draining node => draining.erase node.nodeId) draining ↔
      nodeId ∈ draining ∧ ∀ node ∈ removed, node.nodeId ≠ nodeId := by
  induction removed generalizing draining with
  | nil =>
      simp
  | cons node rest inductionHypothesis =>
      rw [List.foldl_cons, inductionHypothesis, Std.ExtTreeSet.mem_erase,
        List.forall_mem_cons, ne_eq, Std.LawfulEqCmp.compare_eq_iff_eq]
      tauto

end Registry

/-! ## Runs -/

namespace RegistryOp

open Registry

/-- A reap that finds one entry of the node dead finds all of them dead. -/
def ReapsWhole (nodeId : String) (registry : Registry) : RegistryOp → Prop
  | reapDead _ now timeout =>
      ∀ dead ∈ registry.entries, ∀ other ∈ registry.entries,
        dead.2.nodeId = nodeId → other.2.nodeId = nodeId →
          isDead now timeout dead.2 = true →
            isDead now timeout other.2 = true
  | _ => True

/-- Whatever is not a reap keeps a marker. -/
theorem mem_draining_step {registry : Registry} {nodeId : String}
    (marked : nodeId ∈ registry.draining) {next : RegistryOp}
    (notReap : ∀ passes now timeout, next ≠ reapDead passes now timeout) :
    nodeId ∈ (step registry next).draining := by
  have ofIntent : ∀ {after : Registry}, registry.KeepsIntent after →
      nodeId ∈ after.draining := by
    intro after kept
    have same := congrArg Intent.draining kept.intent
    simp only [intent] at same
    rw [same]
    exact marked
  cases next with
  | registerAt request now =>
      exact ofIntent (registry.keepsIntent_registerAt request now)
  | heartbeat passes other now =>
      exact ofIntent (registry.keepsIntent_heartbeat passes other now)
  | reportRaftLeader passes other now =>
      exact ofIntent (registry.keepsIntent_reportRaftLeader passes other now)
  | reapDead passes now timeout =>
      exact absurd rfl (notReap passes now timeout)
  | promoteOrphanedShards passes =>
      exact ofIntent (registry.keepsIntent_promoteOrphanedShards passes)
  | markDraining other =>
      unfold step Registry.markDraining
      dsimp only
      split
      · exact Std.ExtTreeSet.mem_insert.mpr (Or.inr marked)
      · exact marked

/-- A reap clears the marker of a node exactly if it drops an entry of it. -/
theorem mem_draining_reapDead (passes : RegistryPasses)
    {registry : Registry} (owned : registry.authorityReplicated = false)
    {nodeId : String} (marked : nodeId ∈ registry.draining)
    (now timeout : Nat) :
    nodeId ∈ (registry.reapDead passes now timeout).1.draining ↔
      ∀ entry ∈ registry.entries, entry.2.nodeId = nodeId →
        isDead now timeout entry.2 = false := by
  have after :
      (registry.reapDead passes now timeout).1.draining =
        (registry.reapDead passes now timeout).2.foldl
          (fun draining node => draining.erase node.nodeId)
          registry.draining := by
    simp only [Registry.reapDead, owned, Bool.false_eq_true, if_false]
  rw [after, mem_foldl_erase]
  simp only [mem_reaped]
  constructor
  · intro reaping entry member same
    rcases reaping with ⟨-, spared⟩
    apply Bool.eq_false_of_not_eq_true
    intro dead
    exact spared entry.2 ⟨⟨entry.1, member⟩, dead⟩ same
  · intro alive
    refine ⟨marked, ?_⟩
    intro node membership same
    rcases membership with ⟨⟨shard, member⟩, dead⟩
    rw [alive (shard, node) member same] at dead
    cases dead

/-- While the node is listed, a step keeps it shown as draining exactly if it is
not a reap that drops one entry of the node and keeps another. -/
theorem shownDraining_step_iff {registry : Registry} {nodeId : String}
    (owned : registry.authorityReplicated = false)
    (known : registry.knowsNode nodeId = true)
    (shown : ShownDraining nodeId registry) (next : RegistryOp) :
    ((step registry next).knowsNode nodeId = true →
        ShownDraining nodeId (step registry next)) ↔
      ReapsWhole nodeId registry next := by
  have marked := (shownDraining_iff known).mp shown
  by_cases reaps : ∃ passes now timeout, next = reapDead passes now timeout
  · obtain ⟨passes, now, timeout, rfl⟩ := reaps
    have stillKnown :
        (registry.reapDead passes now timeout).1.knowsNode nodeId = true ↔
          ∃ entry ∈ registry.entries, entry.2.nodeId = nodeId ∧
            isDead now timeout entry.2 = false := by
      simp only [knowsNode, List.any_eq_true, decide_eq_true_eq,
        Prod.exists, mem_entries_reapDead]
      constructor
      · intro membership
        rcases membership with ⟨shard, info, ⟨member, alive⟩, same⟩
        exact ⟨shard, info, member, same, alive⟩
      · intro membership
        rcases membership with ⟨shard, info, member, same, alive⟩
        exact ⟨shard, info, ⟨member, alive⟩, same⟩
    constructor
    · intro keeps dead deadListed other otherListed deadSame otherSame died
      by_contra survives
      have alive := Bool.eq_false_of_not_eq_true survives
      have after := stillKnown.mpr ⟨other, otherListed, otherSame, alive⟩
      have still := (shownDraining_iff after).mp (keeps after)
      have spared :=
        (mem_draining_reapDead passes owned marked now timeout).mp still
      rw [spared dead deadListed deadSame] at died
      cases died
    · intro whole after
      obtain ⟨other, otherListed, otherSame, alive⟩ := stillKnown.mp after
      refine (shownDraining_iff after).mpr ?_
      rw [step, mem_draining_reapDead passes owned marked]
      intro entry member same
      apply Bool.eq_false_of_not_eq_true
      intro dead
      have died := whole entry member other otherListed same otherSame dead
      rw [alive] at died
      cases died
  · have notReap : ∀ passes now timeout,
        next ≠ reapDead passes now timeout := by
      intro passes now timeout same
      exact reaps ⟨passes, now, timeout, same⟩
    refine iff_of_true ?_ ?_
    · intro after
      exact (shownDraining_iff after).mpr (mem_draining_step marked notReap)
    · cases next with
      | reapDead passes now timeout =>
          exact absurd rfl (notReap passes now timeout)
      | _ => trivial

/-- Once a node is marked, it is shown as draining for as long as it is
registered exactly if no reap in that time drops one entry of it and keeps
another. -/
theorem drain_marker_sticky_iff (registry : Registry) (nodeId : String)
    (owned : registry.authorityReplicated = false)
    (accepted : (registry.markDraining nodeId).2 = true)
    (run : List RegistryOp) :
    WhileLive step (fun registry => registry.knowsNode nodeId = true)
        (ShownDraining nodeId) (registry.markDraining nodeId).1 run ↔
      EachStepLive step (fun registry => registry.knowsNode nodeId = true)
        (ReapsWhole nodeId) (registry.markDraining nodeId).1 run := by
  have kept : ∀ (current : Registry) (next : RegistryOp),
      current.authorityReplicated = false →
        (step current next).authorityReplicated = false :=
    fun current next currentOwned =>
      (keepsConfiguration_step current next).2.trans currentOwned
  refine whileLive_iff_eachStepLive kept ?_ ?_ ?_
  · intro current next currentOwned known shown
    exact shownDraining_step_iff currentOwned known shown next
  · exact (keepsConfiguration_step registry
      (markDraining nodeId)).2.trans owned
  · intro known
    refine (shownDraining_iff known).mpr ?_
    unfold Registry.markDraining at accepted ⊢
    split at accepted
    · rename_i listed
      rw [if_pos listed]
      exact Std.ExtTreeSet.mem_insert_self
    · cases accepted

/-! ### A restarted leader -/

def storedOrder : RegistryPasses :=
  ⟨.asStored, .asStored⟩

def reregistration (now : Nat) : RegistryOp :=
  registerAt
    { nodeId := "n1", address := "http://n1", shardId := 0,
      role := .follower } now

/-- A member registers as a follower, leads its group, restarts and registers
again. -/
def restarted : Registry :=
  final step (unpopulated 1 15000 [] false)
    [reregistration 0, reportRaftLeader storedOrder "n1" 1, reregistration 2]

/-- The member beats, and a reap finds neither entry old. -/
def beatsOn : List RegistryOp :=
  [heartbeat storedOrder "n1" 10000, reapDead storedOrder 12000 15000]

theorem drain_marker_sticky_iff_beatsOn :
    WhileLive step (fun registry => registry.knowsNode "n1" = true)
        (ShownDraining "n1") (restarted.markDraining "n1").1 beatsOn := by
  refine (drain_marker_sticky_iff restarted "n1" rfl (by decide +kernel)
    beatsOn).mpr ?_
  have noneDead : ∀ entry ∈ (step (restarted.markDraining "n1").1
      (heartbeat storedOrder "n1" 10000)).entries,
        isDead 12000 15000 entry.2 = false := by
    decide +kernel
  intro _
  refine ⟨trivial, fun _ => ⟨?_, trivial⟩⟩
  intro dead listed other _ _ _ died
  rw [noneDead dead listed] at died
  cases died

/-- Only the leader entry is refreshed: the other one is reaped and takes the
marker along. -/
theorem marker_lost_with_older_entry :
    (restarted.markDraining "n1").2 = true ∧
      ¬ WhileLive step (fun registry => registry.knowsNode "n1" = true)
        (ShownDraining "n1") (restarted.markDraining "n1").1
        [heartbeat storedOrder "n1" 10000,
          reapDead storedOrder 17003 15000] := by
  refine ⟨by decide +kernel, ?_⟩
  intro lasts
  obtain ⟨-, afterBeat⟩ := lasts (by decide +kernel)
  obtain ⟨-, afterReap⟩ := afterBeat (by decide +kernel)
  have known : (final step (restarted.markDraining "n1").1
      [heartbeat storedOrder "n1" 10000,
        reapDead storedOrder 17003 15000]).knowsNode "n1" = true := by
    decide +kernel
  have marked := (shownDraining_iff known).mp (afterReap known)
  exact absurd marked (by decide +kernel)

end RegistryOp

end AetherEngine.Coordinator
