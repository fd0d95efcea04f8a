import AetherEngine.Coordinator.ShardMap

/-!
# Failover and leadership reports

A tick of the reaper drops the nodes not heard of and promotes a follower where
the leader is gone; a heartbeat of a node that leads its group makes it the
routed leader.  Neither loses a live node, and each leaves the other shards as
they are.
-/

namespace AetherEngine.Coordinator

open AetherEngine.Ranking
open AetherEngine.Tables

/-- One tick of the reaper. -/
def reaperTick (reaping promoting : RegistryPasses) (registry : Registry)
    (now timeout : Nat) :
    Registry × List NodeInfo × List (UInt32 × String) :=
  let (registry, removed) := registry.reapDead reaping now timeout
  let (registry, promotions) := registry.promoteOrphanedShards promoting
  (registry, removed, promotions)

/-- A node but for its role. -/
def NodeInfo.unranked (info : NodeInfo) : String × String × Nat :=
  (info.nodeId, info.address, info.lastSeen)

namespace ShardCell

/-- A cell has a candidate when it has followers and no leader. -/
theorem candidate_eq_some {cell : ShardCell} {node : NodeInfo}
    (chosen : cell.candidate = some node) :
    cell.leader = none ∧
      cell.followers.getD [] =
        (cell.followers.getD []).dropLast ++ [node] := by
  rw [candidate] at chosen
  split at chosen
  · rename_i nobody
    refine ⟨Option.isNone_iff_eq_none.mp nobody, ?_⟩
    exact (List.dropLast_append_getLast? node chosen).symm
  · contradiction

theorem promote_of_led {cell : ShardCell} {info : NodeInfo}
    (leads : cell.leader = some info) : cell.promote = cell := by
  have nobody : cell.candidate = none := by
    simp [candidate, leads]
  rw [promote, nobody]

/-- A promotion changes roles only. -/
theorem nodes_promote (cell : ShardCell) :
    (cell.promote.nodes.map NodeInfo.unranked).Perm
      (cell.nodes.map NodeInfo.unranked) := by
  cases chosen : cell.candidate with
  | none =>
      rw [promote, chosen]
  | some node =>
      obtain ⟨nobody, listed⟩ := candidate_eq_some chosen
      have after : cell.promote.nodes =
          { node with role := .leader } ::
            (cell.followers.getD []).dropLast := by
        rw [promote, chosen]
        cases rest : (cell.followers.getD []).dropLast with
        | nil => simp [nodes]
        | cons other others => simp [nodes]
      rw [after, nodes, nobody, Option.toList_none, List.nil_append]
      rw [listed, List.dropLast_concat, List.map_cons, List.map_append,
        List.map_singleton]
      exact (List.perm_append_singleton _ _).symm

/-- The candidate of a reaped cell is a live follower. -/
theorem candidate_reap {cell : ShardCell} {now timeout : Nat} {node : NodeInfo}
    (chosen : (cell.reap now timeout).candidate = some node) :
    node ∈ cell.followers.getD [] ∧
      Registry.isDead now timeout node = false := by
  obtain ⟨-, listed⟩ := candidate_eq_some chosen
  have last : node ∈ (cell.reap now timeout).followers.getD [] := by
    rw [listed]
    exact List.mem_append_right _ List.mem_cons_self
  cases follows : cell.followers with
  | none => simp [reap, follows] at last
  | some nodes => simpa [reap, follows] using last

/-- After a promotion a cell that holds a node has a leader. -/
theorem led_promote {cell : ShardCell} {info : NodeInfo}
    (member : info ∈ cell.promote.nodes) :
    cell.promote.leader.isSome = true := by
  cases chosen : cell.candidate with
  | some node =>
      rw [promote, chosen]
      rfl
  | none =>
      rw [promote, chosen] at member ⊢
      cases leads : cell.leader with
      | some leader => rfl
      | none =>
          rw [candidate, leads, Option.isNone_none, if_pos rfl,
            List.getLast?_eq_none_iff] at chosen
          simp [nodes, leads, chosen] at member

end ShardCell

/-- A tick removes the dead entries and only these, keeps the live leaders and
gives every shard that still has a node a leader from among its live nodes. -/
structure RestoresRouting (registry : Registry) (now timeout : Nat)
    (after : Registry) (removed : List NodeInfo)
    (promotions : List (UInt32 × String)) : Prop where
  fresh : ∀ entry ∈ after.entries, Registry.isDead now timeout entry.2 = false
  removed : removed.Perm
    ((registry.entries.filter
      (fun entry => Registry.isDead now timeout entry.2)).map Prod.snd)
  routed : ∀ entry ∈ after.entries, entry.1 ∈ after.leaders
  kept : ∀ (shard : UInt32) (info : NodeInfo),
    registry.leaders[shard]? = some info →
      Registry.isDead now timeout info = false →
        after.leaders[shard]? = some info
  /-- The live entries are still there, but for their roles. -/
  conserved :
    (after.entries.map (fun entry => (entry.1, entry.2.unranked))).Perm
      ((registry.entries.filter
          (fun entry => !Registry.isDead now timeout entry.2)).map
        (fun entry => (entry.1, entry.2.unranked)))
  promoted : ∀ promotion ∈ promotions,
    ∃ node ∈ registry.followers[promotion.1]?.getD [],
      Registry.isDead now timeout node = false ∧
        node.nodeId = promotion.2 ∧
        after.leaders[promotion.1]? = some { node with role := .leader }

theorem cellAt_reaperTick (reaping promoting : RegistryPasses)
    (registry : Registry) (now timeout : Nat) (shard : UInt32) :
    (reaperTick reaping promoting registry now timeout).1.cellAt shard =
      ((registry.cellAt shard).reap now timeout).promote := by
  rw [reaperTick, Registry.cellAt_promoteOrphanedShards,
    Registry.cellAt_reapDead]

theorem reaperTick_restores_routing (reaping promoting : RegistryPasses)
    (registry : Registry) (now timeout : Nat) :
    RestoresRouting registry now timeout
      (reaperTick reaping promoting registry now timeout).1
      (reaperTick reaping promoting registry now timeout).2.1
      (reaperTick reaping promoting registry now timeout).2.2 := by
  have conserved := Registry.entries_view_perm NodeInfo.unranked
    (fun node => !Registry.isDead now timeout node) registry
    (reaperTick reaping promoting registry now timeout).1
    (by
      intro shard
      rw [cellAt_reaperTick, ← ShardCell.nodes_reap]
      exact ShardCell.nodes_promote _)
  constructor
  · intro entry member
    have listed := conserved.mem_iff.mp (List.mem_map_of_mem member)
    obtain ⟨before, alive, same⟩ := List.mem_map.mp listed
    have seen : before.2.lastSeen = entry.2.lastSeen := by
      simp only [NodeInfo.unranked, Prod.mk.injEq] at same
      exact same.2.2.2
    have fresh := (List.mem_filter.mp alive).2
    rw [Bool.not_eq_true', Registry.isDead, seen] at fresh
    exact fresh
  · exact Registry.reaped_perm reaping registry now timeout
  · intro entry member
    have listed : entry.2 ∈ ((reaperTick reaping promoting registry now
        timeout).1.cellAt entry.1).nodes :=
      Registry.mem_entries_iff_mem_nodes.mp member
    rw [cellAt_reaperTick] at listed
    have leads := ShardCell.led_promote listed
    rw [← cellAt_reaperTick reaping promoting] at leads
    exact Std.ExtTreeMap.mem_iff_isSome_getElem?.mpr leads
  · intro shard info leads alive
    have survives :
        ((registry.cellAt shard).reap now timeout).leader = some info := by
      simp [ShardCell.reap, Registry.cellAt, leads, alive]
    have same := cellAt_reaperTick reaping promoting registry now timeout shard
    rw [ShardCell.promote_of_led survives] at same
    exact (congrArg ShardCell.leader same).trans survives
  · exact conserved
  · intro promotion reported
    have candidate := Registry.candidate_of_promoted
      (registry.reapDead reaping now timeout).1 reported
    obtain ⟨node, chosen, same⟩ := candidate
    rw [Registry.cellAt_reapDead] at chosen
    obtain ⟨follows, alive⟩ := ShardCell.candidate_reap chosen
    refine ⟨node, follows, alive, same, ?_⟩
    have after := cellAt_reaperTick reaping promoting registry now timeout
      promotion.1
    rw [ShardCell.promote, chosen] at after
    exact congrArg ShardCell.leader after

/-! ## Leadership reports -/

structure HeartbeatRequest where
  nodeId : String
  /-- The node leads the Raft group of its shard. -/
  raftLeader : Bool
deriving DecidableEq, Repr

structure HeartbeatResponse where
  known : Bool
  currentRole : NodeRole
deriving DecidableEq, Repr

namespace CoordinatorService

/-- Handle a heartbeat; a known node's report that it leads rewires routing. -/
def heartbeat (beating reporting : RegistryPasses) (registry : Registry)
    (request : HeartbeatRequest) (now : Nat) :
    Registry × HeartbeatResponse :=
  let (registry, role) := registry.heartbeat beating request.nodeId now
  let (registry, role) :=
    if request.raftLeader && role.isSome then
      ((registry.reportRaftLeader reporting request.nodeId now).1,
        some .leader)
    else
      (registry, role)
  (registry,
    { known := role.isSome, currentRole := role.getD .unspecified })

end CoordinatorService

/-- A node but for its role and for when it was heard of. -/
def NodeInfo.identity (info : NodeInfo) : String × String :=
  (info.nodeId, info.address)

namespace ShardCell

theorem nodes_touch (cell : ShardCell) (now : Nat) :
    (cell.touch now).nodes.map NodeInfo.identity =
      cell.nodes.map NodeInfo.identity := by
  cases leads : cell.leader with
  | none => simp [nodes, touch, leads]
  | some info => simp [nodes, touch, leads, NodeInfo.identity]

private theorem map_hear {β : Type} {view : NodeInfo → β}
    (same : ∀ (node : NodeInfo) (now : Nat),
      view { node with lastSeen := now } = view node)
    (cell : ShardCell) (nodeId : String) (now : Nat) :
    ((cell.hear nodeId now).followers.getD []).map view =
      (cell.followers.getD []).map view := by
  cases follows : cell.followers with
  | none => simp [hear, follows]
  | some infos =>
      simp only [hear, follows, Option.map_some, Option.getD_some]
      apply Registry.map_updateFirst
      intro node _
      exact same node now

theorem nodes_hear (cell : ShardCell) (nodeId : String) (now : Nat) :
    (cell.hear nodeId now).nodes.map NodeInfo.identity =
      cell.nodes.map NodeInfo.identity := by
  rw [nodes, nodes, List.map_append, List.map_append,
    map_hear (fun _ _ => rfl)]
  rfl

/-- The first match is taken out of the list by an erasure. -/
theorem perm_cons_eraseP {α : Type} {matching : α → Bool} {values : List α}
    {first : α} (found : values.find? matching = some first) :
    values.Perm (first :: values.eraseP matching) := by
  induction values with
  | nil =>
      simp at found
  | cons value rest inductionHypothesis =>
      cases here : matching value with
      | true =>
          rw [List.find?_cons_of_pos here, Option.some.injEq] at found
          rw [List.eraseP_cons_of_pos here, found]
      | false =>
          have other : ¬ matching value = true := by simp [here]
          rw [List.find?_cons_of_neg other] at found
          rw [List.eraseP_cons_of_neg other]
          exact ((inductionHypothesis found).cons value).trans
            (List.Perm.swap ..)

private theorem nodes_install {cell : ShardCell} {promoted : NodeInfo}
    (found : (cell.followers.getD []).find?
      (fun node => node.nodeId = promoted.nodeId) = some promoted)
    (now : Nat) :
    ((cell.install promoted now).nodes.map NodeInfo.identity).Perm
      (cell.nodes.map NodeInfo.identity) := by
  have taken := (perm_cons_eraseP found).map NodeInfo.identity
  have demoted : (cell.leader.map
      (fun old => { old with role := .follower })).toList.map
        NodeInfo.identity =
      cell.leader.toList.map NodeInfo.identity := by
    cases cell.leader with
    | none => rfl
    | some old => rfl
  simp only [nodes, install, Option.toList_some, Option.getD_some,
    List.map_append, List.map_cons, List.singleton_append]
  rw [demoted]
  refine List.Perm.trans ?_ (taken.append_left _).symm
  rw [List.map_cons]
  exact (List.perm_append_comm.cons _).trans List.perm_middle.symm

end ShardCell

namespace Registry

variable (passes : RegistryPasses) {registry : Registry} {shard : UInt32}
  {info : NodeInfo}

/-- A node listed once is found to lead the shard it leads. -/
theorem ledShard_of_leads (unique : registry.nodeIds.Nodup)
    (leads : registry.leaders[shard]? = some info) :
    registry.ledShard passes info.nodeId = some shard := by
  have here : (shard, info) ∈ registry.entries :=
    mem_entries.mpr (Or.inl leads)
  cases led : registry.ledShard passes info.nodeId with
  | none =>
      have absent := ledShard_eq_none_iff.mp led
      exact absurd (List.mem_map.mpr
        ⟨(shard, info), (mem_toList ..).mpr leads, rfl⟩) absent
  | some other =>
      obtain ⟨leader, found, same⟩ := ledShard_spec led
      have there : (other, leader) ∈ registry.entries :=
        mem_entries.mpr (Or.inl found)
      have one := List.inj_on_of_nodup_map unique there here same
      rw [(Prod.mk.inj one).1]

/-- A node listed once among the followers of a shard is found there, and leads
no shard. -/
theorem followedShard_of_follows (unique : registry.nodeIds.Nodup)
    (follows : info ∈ (registry.cellAt shard).followers.getD []) :
    registry.ledShard passes info.nodeId = none ∧
      registry.followedShard passes info.nodeId = some shard := by
  obtain ⟨nodes, found, member⟩ : ∃ nodes,
      registry.followers[shard]? = some nodes ∧ info ∈ nodes := by
    cases found : registry.followers[shard]? with
    | none => simp [cellAt, found] at follows
    | some nodes => exact ⟨nodes, rfl, by simpa [cellAt, found] using follows⟩
  have here : (shard, info) ∈ registry.entries :=
    mem_entries.mpr (Or.inr ⟨nodes, found, member⟩)
  have listed : info.nodeId ∈ followerIds registry.followers := by
    rw [followerIds, List.mem_flatMap]
    exact ⟨(shard, nodes), (mem_toList ..).mpr found,
      List.mem_map_of_mem member⟩
  have apart := unique
  rw [nodeIds_eq] at apart
  refine ⟨ledShard_eq_none_iff.mpr
    ((List.disjoint_of_nodup_append apart).symm listed), ?_⟩
  cases followed : registry.followedShard passes info.nodeId with
  | none => exact absurd listed (followedShard_eq_none_iff.mp followed)
  | some other =>
      obtain ⟨others, located, node, present, same⟩ :=
        followedShard_spec followed
      have there : (other, node) ∈ registry.entries :=
        mem_entries.mpr (Or.inr ⟨others, located, present⟩)
      have one := List.inj_on_of_nodup_map unique there here same
      rw [(Prod.mk.inj one).1]

end Registry

/-- The node leads the shard, a leader it replaces follows with its address and
liveness intact, no node is lost or doubled, and every other shard is as it
was. -/
structure RewiresShard (registry : Registry) (nodeId : String) (now : Nat)
    (shard : UInt32) (after : Registry) : Prop where
  leads : ∃ leader, after.leaders[shard]? = some leader ∧
    leader.nodeId = nodeId ∧ leader.lastSeen = now
  demoted : ∀ old, registry.leaders[shard]? = some old →
    old.nodeId ≠ nodeId →
      { old with role := .follower } ∈ after.followers[shard]?.getD []
  conserved :
    (after.entries.map (fun entry => (entry.1, entry.2.identity))).Perm
      (registry.entries.map (fun entry => (entry.1, entry.2.identity)))
  framed : ∀ other, other ≠ shard →
    after.leaders[other]? = registry.leaders[other]? ∧
      after.followers[other]? = registry.followers[other]?

/-- A change of one cell that keeps its nodes rewires that shard. -/
theorem rewiresShard_of_cell {registry after : Registry} {nodeId : String}
    {now : Nat} {shard : UInt32} (cell : ShardCell)
    (changed : ∀ other, after.cellAt other =
      if other = shard then cell else registry.cellAt other)
    (leads : ∃ leader, cell.leader = some leader ∧
      leader.nodeId = nodeId ∧ leader.lastSeen = now)
    (demoted : ∀ old, registry.leaders[shard]? = some old →
      old.nodeId ≠ nodeId →
        { old with role := .follower } ∈ cell.followers.getD [])
    (conserved : (cell.nodes.map NodeInfo.identity).Perm
      ((registry.cellAt shard).nodes.map NodeInfo.identity)) :
    RewiresShard registry nodeId now shard after := by
  have here : after.cellAt shard = cell := by
    rw [changed, if_pos rfl]
  constructor
  · rw [← here] at leads
    exact leads
  · rw [← here] at demoted
    exact demoted
  · have kept := Registry.entries_view_perm NodeInfo.identity (fun _ => true)
      registry after (by
        intro other
        rw [changed, List.filter_true]
        by_cases same : other = shard
        · rw [if_pos same, same]
          exact conserved
        · rw [if_neg same])
    rwa [List.filter_true] at kept
  · intro other different
    have same := changed other
    rw [if_neg different] at same
    exact ⟨congrArg ShardCell.leader same,
      congrArg ShardCell.followers same⟩

namespace CoordinatorService

/-- A known node's report comes after its liveness is refreshed. -/
theorem heartbeat_of_known {beating : RegistryPasses} {registry : Registry}
    {nodeId : String} {now : Nat} {role : NodeRole}
    (known : (registry.heartbeat beating nodeId now).2 = some role)
    (reporting : RegistryPasses) :
    (heartbeat beating reporting registry ⟨nodeId, true⟩ now).1 =
      ((registry.heartbeat beating nodeId now).1.reportRaftLeader reporting
        nodeId now).1 := by
  simp [heartbeat, known]

private theorem rewires_of_leads (beating reporting : RegistryPasses)
    {registry : Registry} {shard : UInt32} {info : NodeInfo} (now : Nat)
    (unique : registry.nodeIds.Nodup)
    (leads : registry.leaders[shard]? = some info) :
    RewiresShard registry info.nodeId now shard
      (heartbeat beating reporting registry ⟨info.nodeId, true⟩ now).1 := by
  have led := Registry.ledShard_of_leads beating unique leads
  have beat : registry.heartbeat beating info.nodeId now =
      (registry.touchLeader shard now, some .leader) := by
    simp only [Registry.heartbeat, led]
  have uniqueAfter : (registry.touchLeader shard now).nodeIds.Nodup :=
    (Registry.nodeIds_touchLeader leads now).nodup_iff.mpr unique
  have leadsAfter : (registry.touchLeader shard now).leaders[shard]? =
      some { info with lastSeen := now } := by
    rw [Registry.touchLeader, getElem?_alter, if_pos rfl, leads]
    rfl
  have ledAfter := Registry.ledShard_of_leads reporting
    uniqueAfter leadsAfter
  rw [heartbeat_of_known (by rw [beat]) reporting, beat]
  simp only [Registry.reportRaftLeader, ledAfter]
  refine rewiresShard_of_cell
    (((registry.cellAt shard).touch now).touch now) ?_ ?_ ?_ ?_
  · intro other
    rw [Registry.cellAt_touchLeader, Registry.cellAt_touchLeader,
      Registry.cellAt_touchLeader, if_pos rfl]
    by_cases same : other = shard
    · rw [if_pos same, if_pos same]
    · rw [if_neg same, if_neg same, if_neg same]
  · refine ⟨{ info with lastSeen := now }, ?_, rfl, rfl⟩
    simp [ShardCell.touch, Registry.cellAt, leads]
  · intro old before different
    rw [leads, Option.some.injEq] at before
    exact absurd (congrArg NodeInfo.nodeId before.symm) different
  · rw [ShardCell.nodes_touch, ShardCell.nodes_touch]

private theorem rewires_of_follows (beating reporting : RegistryPasses)
    {registry : Registry} {shard : UInt32} {info : NodeInfo} (now : Nat)
    (unique : registry.nodeIds.Nodup)
    (follows : info ∈ (registry.cellAt shard).followers.getD []) :
    RewiresShard registry info.nodeId now shard
      (heartbeat beating reporting registry ⟨info.nodeId, true⟩ now).1 := by
  obtain ⟨notLed, followed⟩ :=
    Registry.followedShard_of_follows beating unique follows
  have known :
      (registry.heartbeat beating info.nodeId now).2 = some .follower := by
    simp only [Registry.heartbeat, notLed, followed]
  have cells : ∀ other,
      (registry.heartbeat beating info.nodeId now).1.cellAt other =
        if other = shard then (registry.cellAt shard).hear info.nodeId now
        else registry.cellAt other := by
    intro other
    rw [Registry.cellAt_heartbeat, notLed, followed, if_neg (by simp)]
    by_cases same : other = shard
    · rw [if_pos ⟨rfl, by rw [same]⟩, if_pos same, same]
    · rw [if_neg (fun found => same (Option.some.inj found.2).symm),
        if_neg same]
  have uniqueAfter :=
    (Registry.nodeIds_heartbeat beating registry info.nodeId
      now).nodup_iff.mpr unique
  rw [heartbeat_of_known known reporting]
  generalize (registry.heartbeat beating info.nodeId now).1 = beaten at *
  have here : beaten.cellAt shard =
      (registry.cellAt shard).hear info.nodeId now := by
    rw [cells, if_pos rfl]
  obtain ⟨heard, stays, same⟩ :
      ∃ heard ∈ (beaten.cellAt shard).followers.getD [],
        heard.nodeId = info.nodeId := by
    have listed := List.mem_map_of_mem (f := NodeInfo.nodeId) follows
    rw [← ShardCell.map_hear (fun _ _ => rfl) _ info.nodeId now,
      ← here] at listed
    exact List.mem_map.mp listed
  obtain ⟨stillNotLed, stillFollowed⟩ :=
    Registry.followedShard_of_follows reporting uniqueAfter stays
  rw [same] at stillNotLed stillFollowed
  rcases beaten.reportRaftLeader_cases reporting info.nodeId now with
    ⟨led, found, -⟩ | ⟨-, lost, -⟩ |
      ⟨place, promoted, -, found, first, after⟩
  · rw [stillNotLed] at found
    contradiction
  · rw [stillFollowed] at lost
    contradiction
  · rw [stillFollowed, Option.some.injEq] at found
    subst found
    have named : promoted.nodeId = info.nodeId := by
      simpa using List.find?_some first
    rw [after]
    refine rewiresShard_of_cell
      ((beaten.cellAt shard).install promoted now) ?_ ?_ ?_ ?_
    · intro other
      rw [Registry.cellAt_installLeader]
      by_cases here : other = shard
      · rw [if_pos here, if_pos here]
      · rw [if_neg here, if_neg here, cells, if_neg here]
    · exact ⟨_, rfl, named, rfl⟩
    · intro old before _
      have led : (beaten.cellAt shard).leader = some old := by
        rw [here]
        exact before
      simp [ShardCell.install, led]
    · rw [← ShardCell.nodes_hear (registry.cellAt shard) info.nodeId now,
        ← here]
      apply ShardCell.nodes_install
      rw [named]
      exact first

/-- Where every node is listed once, a heartbeat of a node that leads its group
rewires the node's shard, and one of an unknown node changes nothing. -/
theorem heartbeat_rewires_shard (beating reporting : RegistryPasses)
    (registry : Registry) (nodeId : String) (now : Nat)
    (unique : registry.nodeIds.Nodup) :
    (∀ (shard : UInt32) (info : NodeInfo), (shard, info) ∈ registry.entries →
      info.nodeId = nodeId →
        RewiresShard registry nodeId now shard
          (heartbeat beating reporting registry ⟨nodeId, true⟩ now).1) ∧
      (nodeId ∉ registry.nodeIds →
        (heartbeat beating reporting registry ⟨nodeId, true⟩ now).1 =
          registry) := by
  constructor
  · intro shard info listed same
    subst same
    rcases Registry.mem_entries.mp listed with leads | ⟨nodes, found, member⟩
    · exact rewires_of_leads beating reporting now unique leads
    · apply rewires_of_follows beating reporting now unique
      simpa [Registry.cellAt, found] using member
  · intro unknown
    rw [Registry.nodeIds_eq, List.mem_append, not_or] at unknown
    simp [heartbeat, Registry.heartbeat,
      Registry.ledShard_eq_none_iff.mpr unknown.1,
      Registry.followedShard_eq_none_iff.mpr unknown.2]

/-- A shard with a leader and a follower. -/
def staffedShard : Registry :=
  { Registry.new 1 with
    leaders := Std.ExtTreeMap.empty.insert 0 ⟨"n1", "http://n1", .leader, 3⟩
    followers := Std.ExtTreeMap.empty.insert 0
      [⟨"n2", "http://n2", .follower, 4⟩] }

theorem heartbeat_rewires_staffedShard :
    staffedShard.nodeIds.Nodup ∧
      RewiresShard staffedShard "n2" 9 0
        (heartbeat ⟨.asStored, .asStored⟩ ⟨.asStored, .asStored⟩ staffedShard
          ⟨"n2", true⟩ 9).1 := by
  have unique : staffedShard.nodeIds.Nodup := by decide +kernel
  have listed : ((0, ⟨"n2", "http://n2", .follower, 4⟩) : UInt32 × NodeInfo) ∈
      staffedShard.entries := by
    decide +kernel
  exact ⟨unique, (heartbeat_rewires_shard _ _ staffedShard "n2" 9 unique).1
    0 _ listed rfl⟩

end CoordinatorService

end AetherEngine.Coordinator
