import AetherEngine.Coordinator.Failover
import AetherEngine.Coordinator.WellFormed
import AetherEngine.Foundations.Traces

/-!
# Nodes register and beat

The nodes of Raft-managed shards register as followers and beat.  A node that a
coordinator answers it does not know registers again; so a coordinator that
restarts with an empty registry hears of everyone anew.  A node process that
starts again has been dropped before.
-/

namespace AetherEngine.Coordinator

open AetherEngine.Traces

/-! ## Nodes -/

/-- A node as it registers with every coordinator. -/
structure ShardNode where
  nodeId : String
  address : String
  shardId : UInt32
deriving DecidableEq, Repr

/-- A node of a Raft-managed shard always registers as a follower. -/
def ShardNode.registration (node : ShardNode) : RegisterNodeRequest where
  nodeId := node.nodeId
  address := node.address
  shardId := node.shardId
  role := .follower

/-- One coordinator's registry, and which nodes will register with it next. -/
structure Sightings (Member : Type) where
  registry : Registry
  forgotten : Member → Bool

inductive SightingEvent (Member : Type) where
  /-- A node beats and says whether it leads its Raft group; the answer may not
  get back. -/
  | beat (beating reporting : RegistryPasses) (member : Member)
      (leads answered : Bool) (now : Nat)
  | register (member : Member) (now : Nat)
  /-- The registration does not get through. -/
  | registrationFails (member : Member)
  /-- A node process starts again after the coordinator has dropped it. -/
  | start (member : Member)
  | reap (reaping promoting : RegistryPasses) (now : Nat)
  | drain (nodeId : String)
  /-- The coordinator restarts. -/
  | restart

namespace Sightings

variable {Member : Type} [DecidableEq Member]

/-- Every node registers when it starts. -/
def begin (fresh : Registry) : Sightings Member where
  registry := fresh
  forgotten _ := true

def setForgotten (current : Sightings Member) (member : Member)
    (forgotten : Bool) : Sightings Member :=
  { current with
    forgotten := fun other =>
      if other = member then forgotten else current.forgotten other }

def step (nodeOf : Member → ShardNode) (fresh : Registry) (timeout : Nat)
    (current : Sightings Member) :
    SightingEvent Member → Option (Sightings Member)
  | .beat beating reporting member leads answered now =>
      if current.forgotten member then
        none
      else
        let (registry, response) := CoordinatorService.heartbeat beating
          reporting current.registry ⟨(nodeOf member).nodeId, leads⟩ now
        some ({ current with registry := registry }.setForgotten member
          (answered && !response.known))
  | .register member now =>
      if current.forgotten member then
        let (registry, _) :=
          current.registry.registerAt (nodeOf member).registration now
        some ({ current with registry := registry }.setForgotten member false)
      else
        none
  | .registrationFails member =>
      if current.forgotten member then
        some (current.setForgotten member false)
      else
        none
  | .start member =>
      if (nodeOf member).nodeId ∈ current.registry.nodeIds then
        none
      else
        some (current.setForgotten member true)
  | .reap reaping promoting now =>
      some
        { current with
          registry :=
            (reaperTick reaping promoting current.registry now timeout).1 }
  | .drain nodeId =>
      some
        { current with
          registry := (current.registry.markDraining nodeId).1 }
  | .restart => some { current with registry := fresh }

end Sightings

/-! ## What a cell remembers -/

namespace ShardCell

/-- The nodes heard of since then are still there, and heard of since then. -/
def Remembers (since : Nat) (before after : ShardCell) : Prop :=
  ∀ info ∈ before.nodes, since ≤ info.lastSeen →
    ∃ later ∈ after.nodes,
      later.nodeId = info.nodeId ∧ since ≤ later.lastSeen

/-- No node is new. -/
def OnlyKnown (before after : ShardCell) : Prop :=
  ∀ info ∈ after.nodes, ∃ old ∈ before.nodes, old.identity = info.identity

variable {since : Nat} {cell : ShardCell}

theorem remembers_rfl : Remembers since cell cell :=
  fun info member recent => ⟨info, member, rfl, recent⟩

theorem onlyKnown_rfl : OnlyKnown cell cell :=
  fun info member => ⟨info, member, rfl⟩

theorem mem_nodes {info : NodeInfo} :
    info ∈ cell.nodes ↔
      cell.leader = some info ∨ info ∈ cell.followers.getD [] := by
  rw [nodes, List.mem_append, Option.mem_toList]

private theorem remembers_touch {now : Nat} (recent : since ≤ now) :
    Remembers since cell (cell.touch now) := by
  intro info member heard
  rcases mem_nodes.mp member with leads | follows
  · refine ⟨{ info with lastSeen := now }, mem_nodes.mpr (.inl ?_), rfl, recent⟩
    rw [touch, leads, Option.map_some]
  · exact ⟨info, mem_nodes.mpr (.inr follows), rfl, heard⟩

theorem onlyKnown_of_map_eq {after : ShardCell}
    (same : after.nodes.map NodeInfo.identity =
      cell.nodes.map NodeInfo.identity) : OnlyKnown cell after := by
  intro info member
  have listed := List.mem_map_of_mem (f := NodeInfo.identity) member
  rw [same] at listed
  obtain ⟨old, oldMember, sameIdentity⟩ := List.mem_map.mp listed
  exact ⟨old, oldMember, sameIdentity⟩

private theorem mem_updateFirst_of_mem (matching : NodeInfo → Bool)
    (change : NodeInfo → NodeInfo) {values : List NodeInfo} {info : NodeInfo}
    (member : info ∈ values) :
    info ∈ updateFirst matching change values ∨
      change info ∈ updateFirst matching change values := by
  induction values with
  | nil =>
      cases member
  | cons head tail inductionHypothesis =>
      unfold updateFirst
      split
      · rcases List.mem_cons.mp member with rfl | later
        · exact .inr List.mem_cons_self
        · exact .inl (List.mem_cons_of_mem _ later)
      · rcases List.mem_cons.mp member with rfl | later
        · exact .inl List.mem_cons_self
        · exact (inductionHypothesis later).imp (List.mem_cons_of_mem _)
            (List.mem_cons_of_mem _)

private theorem remembers_hear {nodeId : String} {now : Nat}
    (recent : since ≤ now) :
    Remembers since cell (cell.hear nodeId now) := by
  intro info member heard
  rcases mem_nodes.mp member with leads | follows
  · exact ⟨info, mem_nodes.mpr (.inl leads), rfl, heard⟩
  · cases found : cell.followers with
    | none =>
        rw [found] at follows
        cases follows
    | some nodes =>
        rw [found, Option.getD_some] at follows
        have listed : ∀ later ∈ updateFirst
            (fun node => decide (node.nodeId = nodeId))
            (fun node => { node with lastSeen := now }) nodes,
            later ∈ (cell.hear nodeId now).nodes := by
          intro later inside
          rw [mem_nodes, hear, found]
          exact .inr inside
        rcases mem_updateFirst_of_mem
          (fun node => decide (node.nodeId = nodeId))
          (fun node => { node with lastSeen := now }) follows with
          same | refreshed
        · exact ⟨info, listed _ same, rfl, heard⟩
        · exact ⟨_, listed _ refreshed, rfl, recent⟩

private theorem remembers_install {promoted : NodeInfo} {now : Nat}
    (recent : since ≤ now) :
    Remembers since cell (cell.install promoted now) := by
  intro info member heard
  rcases mem_nodes.mp member with leads | follows
  · refine ⟨{ info with role := .follower }, ?_, rfl, heard⟩
    rw [mem_nodes, install, leads]
    simp
  · by_cases same : info.nodeId = promoted.nodeId
    · exact ⟨{ promoted with role := .leader, lastSeen := now },
        mem_nodes.mpr (.inl rfl), same.symm, recent⟩
    · have stays : info ∈ (cell.followers.getD []).eraseP
          (fun node => node.nodeId = promoted.nodeId) := by
        rw [List.mem_eraseP_of_neg (by simp [same])]
        exact follows
      refine ⟨info, mem_nodes.mpr (.inr ?_), rfl, heard⟩
      exact List.mem_append_left _ stays

private theorem onlyKnown_install {promoted : NodeInfo} {now : Nat}
    (listed : promoted ∈ cell.followers.getD []) :
    OnlyKnown cell (cell.install promoted now) := by
  intro info member
  rcases mem_nodes.mp member with leads | follows
  · cases leads
    exact ⟨promoted, mem_nodes.mpr (.inr listed), rfl⟩
  · rcases List.mem_append.mp follows with stays | demoted
    · exact ⟨info, mem_nodes.mpr (.inr (List.mem_of_mem_eraseP stays)), rfl⟩
    · rw [Option.mem_toList, Option.map_eq_some_iff] at demoted
      obtain ⟨old, leads, rfl⟩ := demoted
      exact ⟨old, mem_nodes.mpr (.inl leads), rfl⟩

private theorem remembers_enter {entered : NodeInfo}
    (recent : since ≤ entered.lastSeen) :
    Remembers since cell (cell.enter entered) := by
  intro info member heard
  rcases mem_nodes.mp member with leads | follows
  · exact ⟨info, mem_nodes.mpr (.inl leads), rfl, heard⟩
  · obtain ⟨front, back, after, -, before⟩ :=
      Registry.enterFollower_split (cell.followers.getD []) entered
    have listed : ∀ later ∈ front ++ entered :: back,
        later ∈ (cell.enter entered).nodes := by
      intro later inside
      rw [mem_nodes, enter, Option.getD_some, after]
      exact .inr inside
    rcases before with ⟨same, -⟩ | ⟨old, same, sameId⟩
    · rw [same] at follows
      exact ⟨info, listed _ (List.mem_append_left _ follows), rfl, heard⟩
    · rw [same, List.mem_append, List.mem_cons] at follows
      rcases follows with earlier | rfl | later
      · exact ⟨info, listed _ (by simp [earlier]), rfl, heard⟩
      · exact ⟨entered, listed _ (by simp), sameId.symm, recent⟩
      · exact ⟨info, listed _ (by simp [later]), rfl, heard⟩

private theorem mem_nodes_enter {entered info : NodeInfo}
    (member : info ∈ (cell.enter entered).nodes) :
    info = entered ∨ info ∈ cell.nodes := by
  rcases mem_nodes.mp member with leads | follows
  · exact .inr (mem_nodes.mpr (.inl leads))
  · obtain ⟨front, back, after, -, before⟩ :=
      Registry.enterFollower_split (cell.followers.getD []) entered
    rw [enter, Option.getD_some, after, List.mem_append, List.mem_cons]
      at follows
    rw [mem_nodes]
    rcases before with ⟨same, rfl⟩ | ⟨old, same, -⟩
    · rw [same]
      simp only [List.not_mem_nil, or_false] at follows
      tauto
    · rw [same, List.mem_append, List.mem_cons]
      tauto

theorem entered_mem_nodes (cell : ShardCell) (entered : NodeInfo) :
    entered ∈ (cell.enter entered).nodes := by
  obtain ⟨front, back, after, -, -⟩ :=
    Registry.enterFollower_split (cell.followers.getD []) entered
  rw [mem_nodes, enter, Option.getD_some, after]
  simp

private theorem remembers_reap {now timeout : Nat}
    (soon : now ≤ since + timeout) :
    Remembers since cell (cell.reap now timeout) := by
  intro info member heard
  refine ⟨info, ?_, rfl, heard⟩
  rw [nodes_reap, List.mem_filter, Registry.isDead]
  refine ⟨member, ?_⟩
  simp only [Bool.not_eq_true', decide_eq_false_iff_not]
  omega

private theorem onlyKnown_reap {now timeout : Nat} :
    OnlyKnown cell (cell.reap now timeout) := by
  intro info member
  rw [nodes_reap] at member
  exact ⟨info, (List.mem_filter.mp member).1, rfl⟩

private theorem remembers_promote : Remembers since cell cell.promote := by
  intro info member heard
  have listed := (nodes_promote cell).mem_iff.mpr
    (List.mem_map_of_mem (f := NodeInfo.unranked) member)
  obtain ⟨later, inside, same⟩ := List.mem_map.mp listed
  simp only [NodeInfo.unranked, Prod.mk.injEq] at same
  exact ⟨later, inside, same.1, same.2.2 ▸ heard⟩

private theorem onlyKnown_promote : OnlyKnown cell cell.promote := by
  intro info member
  have listed := (nodes_promote cell).mem_iff.mp
    (List.mem_map_of_mem (f := NodeInfo.unranked) member)
  obtain ⟨old, inside, same⟩ := List.mem_map.mp listed
  simp only [NodeInfo.unranked, Prod.mk.injEq] at same
  exact ⟨old, inside, by simp [NodeInfo.identity, same]⟩

end ShardCell

/-! ## What a call keeps -/

namespace RegistryOp

/-- A call that falls in a time window no longer than its timeout, and registers
followers only. -/
def Within (since : Nat) : RegistryOp → Prop
  | registerAt request now => request.role = .follower ∧ since ≤ now
  | heartbeat _ _ now => since ≤ now
  | reportRaftLeader _ _ now => since ≤ now
  | reapDead _ now timeout => now ≤ since + timeout
  | promoteOrphanedShards _ => True
  | markDraining _ => True

/-- A call that is not a registration. -/
def NotRegistering (op : RegistryOp) : Prop :=
  ∀ request now, op ≠ registerAt request now

theorem cellAt_markDraining (registry : Registry) (nodeId : String)
    (shard : UInt32) :
    (registry.markDraining nodeId).1.cellAt shard =
      registry.cellAt shard := by
  unfold Registry.markDraining
  split
  · rfl
  · rfl

theorem remembers_step {registry : Registry} {since : Nat} {op : RegistryOp}
    (within : op.Within since) (shard : UInt32) :
    ShardCell.Remembers since (registry.cellAt shard)
      ((op.step registry).cellAt shard) := by
  cases op with
  | registerAt request now =>
      by_cases admitted : registry.admits request now = true
      · rw [step, Registry.cellAt_registerAt_follower admitted within.1]
        split
        next same =>
          subst same
          exact ShardCell.remembers_enter within.2
        · exact ShardCell.remembers_rfl
      · rw [step, Registry.registerAt_of_not_admits
          (Bool.eq_false_of_not_eq_true admitted)]
        exact ShardCell.remembers_rfl
  | heartbeat passes nodeId now =>
      rw [step, Registry.cellAt_heartbeat]
      split
      · exact ShardCell.remembers_touch within
      · split
        · exact ShardCell.remembers_hear within
        · exact ShardCell.remembers_rfl
  | reportRaftLeader passes nodeId now =>
      rw [step]
      rcases registry.reportRaftLeader_cases passes nodeId now with
        ⟨led, -, after⟩ | ⟨-, -, after⟩ | ⟨followed, promoted, -, -, -, after⟩
      · rw [after, Registry.cellAt_touchLeader]
        split
        next same =>
          subst same
          exact ShardCell.remembers_touch within
        · exact ShardCell.remembers_rfl
      · rw [after]
        exact ShardCell.remembers_rfl
      · rw [after, Registry.cellAt_installLeader]
        split
        next same =>
          subst same
          exact ShardCell.remembers_install within
        · exact ShardCell.remembers_rfl
  | reapDead passes now timeout =>
      rw [step, Registry.cellAt_reapDead]
      exact ShardCell.remembers_reap within
  | promoteOrphanedShards passes =>
      rw [step, Registry.cellAt_promoteOrphanedShards]
      exact ShardCell.remembers_promote
  | markDraining nodeId =>
      rw [step, cellAt_markDraining]
      exact ShardCell.remembers_rfl

/-- Only a registration brings a new node. -/
theorem onlyKnown_step (registry : Registry) {op : RegistryOp}
    (notRegistering : op.NotRegistering)
    (shard : UInt32) :
    ShardCell.OnlyKnown (registry.cellAt shard)
      ((op.step registry).cellAt shard) := by
  cases op with
  | registerAt request now =>
      exact absurd rfl (notRegistering request now)
  | heartbeat passes nodeId now =>
      rw [step, Registry.cellAt_heartbeat]
      split
      · exact ShardCell.onlyKnown_of_map_eq (ShardCell.nodes_touch _ _)
      · split
        · exact ShardCell.onlyKnown_of_map_eq (ShardCell.nodes_hear _ _ _)
        · exact ShardCell.onlyKnown_rfl
  | reportRaftLeader passes nodeId now =>
      rw [step]
      rcases registry.reportRaftLeader_cases passes nodeId now with
        ⟨led, -, after⟩ | ⟨-, -, after⟩ |
        ⟨followed, promoted, -, -, first, after⟩
      · rw [after, Registry.cellAt_touchLeader]
        split
        next same =>
          subst same
          exact ShardCell.onlyKnown_of_map_eq (ShardCell.nodes_touch _ _)
        · exact ShardCell.onlyKnown_rfl
      · rw [after]
        exact ShardCell.onlyKnown_rfl
      · rw [after, Registry.cellAt_installLeader]
        split
        next same =>
          subst same
          exact ShardCell.onlyKnown_install (List.mem_of_find?_eq_some first)
        · exact ShardCell.onlyKnown_rfl
  | reapDead passes now timeout =>
      rw [step, Registry.cellAt_reapDead]
      exact ShardCell.onlyKnown_reap
  | promoteOrphanedShards passes =>
      rw [step, Registry.cellAt_promoteOrphanedShards]
      exact ShardCell.onlyKnown_promote
  | markDraining nodeId =>
      rw [step, cellAt_markDraining]
      exact ShardCell.onlyKnown_rfl

end RegistryOp

/-- The node leads the shard and has been heard of since then. -/
def Registry.RoutesTo (registry : Registry) (shard : UInt32)
    (nodeId : String) (since : Nat) : Prop :=
  ∃ info, (registry.cellAt shard).leader = some info ∧
    info.nodeId = nodeId ∧ since ≤ info.lastSeen

section Routes

variable {registry : Registry} {since : Nat} {shard : UInt32}
variable {nodeId : String}

private theorem Registry.RoutesTo.of_same_leader
    (routes : registry.RoutesTo shard nodeId since) {after : Registry}
    (same : (after.cellAt shard).leader = (registry.cellAt shard).leader) :
    after.RoutesTo shard nodeId since := by
  obtain ⟨info, leads, sameId, heard⟩ := routes
  exact ⟨info, same.trans leads, sameId, heard⟩

private theorem Registry.RoutesTo.of_touch
    (routes : registry.RoutesTo shard nodeId since) {after : Registry}
    {now : Nat} (recent : since ≤ now)
    (same : after.cellAt shard = (registry.cellAt shard).touch now) :
    after.RoutesTo shard nodeId since := by
  obtain ⟨info, leads, sameId, -⟩ := routes
  refine ⟨{ info with lastSeen := now }, ?_, sameId, recent⟩
  rw [same, ShardCell.touch, leads, Option.map_some]

private theorem Registry.RoutesTo.registerAt
    (routes : registry.RoutesTo shard nodeId since)
    {request : RegisterNodeRequest} {now : Nat}
    (within : (RegistryOp.registerAt request now).Within since) :
    ((RegistryOp.registerAt request now).step registry).RoutesTo shard
      nodeId since := by
  apply routes.of_same_leader
  by_cases admitted : registry.admits request now = true
  · rw [RegistryOp.step, Registry.cellAt_registerAt_follower admitted
      within.1]
    split
    next same =>
      subst same
      rfl
    · rfl
  · rw [RegistryOp.step, Registry.registerAt_of_not_admits
      (Bool.eq_false_of_not_eq_true admitted)]

private theorem Registry.RoutesTo.heartbeat
    (routes : registry.RoutesTo shard nodeId since)
    (passes : RegistryPasses) (other : String) {now : Nat}
    (within : since ≤ now) :
    ((RegistryOp.heartbeat passes other now).step registry).RoutesTo shard
      nodeId since := by
  have cell := registry.cellAt_heartbeat passes other now shard
  split at cell
  · exact routes.of_touch within cell
  · apply routes.of_same_leader
    rw [RegistryOp.step, cell]
    split
    · rfl
    · rfl

/-- A report of the routed leader, or of a node that is no rival. -/
private theorem Registry.RoutesTo.reportRaftLeader
    (routes : registry.RoutesTo shard nodeId since)
    (passes : RegistryPasses) (other : String) {now : Nat}
    (within : since ≤ now)
    (unrivalled : ∀ info ∈ (registry.cellAt shard).nodes,
      info.nodeId = other → other = nodeId) :
    ((RegistryOp.reportRaftLeader passes other now).step registry).RoutesTo
      shard nodeId since := by
  rw [RegistryOp.step]
  rcases registry.reportRaftLeader_cases passes other now with
    ⟨led, -, after⟩ | ⟨-, -, after⟩ |
    ⟨followed, promoted, notLed, -, first, after⟩
  · rw [after]
    have cell := registry.cellAt_touchLeader led now shard
    split at cell
    next same =>
      subst same
      exact routes.of_touch within cell
    · exact routes.of_same_leader (congrArg ShardCell.leader cell)
  · rw [after]
    exact routes.of_same_leader rfl
  · rw [after]
    have cell := registry.cellAt_installLeader followed promoted now shard
    split at cell
    next same =>
      -- the routed leader would be found leading, not following
      subst same
      obtain ⟨info, leads, sameId, -⟩ := routes
      have follows : promoted ∈ (registry.cellAt shard).nodes :=
        ShardCell.mem_nodes.mpr (.inr (List.mem_of_find?_eq_some first))
      have found : promoted.nodeId = other := by
        simpa using List.find?_some first
      refine absurd ?_ (Registry.ledShard_eq_none_iff.mp notLed)
      rw [unrivalled promoted follows found, ← sameId]
      exact List.mem_map.mpr ⟨(shard, info),
        (Tables.mem_toList ..).mpr leads, rfl⟩
    · exact routes.of_same_leader (congrArg ShardCell.leader cell)

private theorem Registry.RoutesTo.reapDead
    (routes : registry.RoutesTo shard nodeId since)
    (passes : RegistryPasses) {now timeout : Nat}
    (within : now ≤ since + timeout) :
    ((RegistryOp.reapDead passes now timeout).step registry).RoutesTo shard
      nodeId since := by
  obtain ⟨info, leads, sameId, heard⟩ := routes
  have alive : Registry.isDead now timeout info = false := by
    rw [Registry.isDead, decide_eq_false_iff_not]
    omega
  refine ⟨info, ?_, sameId, heard⟩
  rw [RegistryOp.step, Registry.cellAt_reapDead, ShardCell.reap, leads]
  simp [alive]

/-- A routed leader stays one until another node of its shard reports that it
leads. -/
theorem RegistryOp.routesTo_step {op : RegistryOp}
    (within : op.Within since)
    (routes : registry.RoutesTo shard nodeId since)
    (unrivalled : ∀ passes other now,
      op = reportRaftLeader passes other now →
        ∀ info ∈ (registry.cellAt shard).nodes, info.nodeId = other →
          other = nodeId) :
    (op.step registry).RoutesTo shard nodeId since := by
  cases op with
  | registerAt request now =>
      exact routes.registerAt within
  | heartbeat passes other now =>
      exact routes.heartbeat passes other within
  | reportRaftLeader passes other now =>
      exact routes.reportRaftLeader passes other within
        (unrivalled passes other now rfl)
  | reapDead passes now timeout =>
      exact routes.reapDead passes within
  | promoteOrphanedShards passes =>
      obtain ⟨info, leads, -, -⟩ := id routes
      apply routes.of_same_leader
      rw [step, Registry.cellAt_promoteOrphanedShards,
        ShardCell.promote_of_led leads]
  | markDraining other =>
      apply routes.of_same_leader
      rw [step, cellAt_markDraining]

end Routes

/-! ## Beats -/

private theorem Registry.heartbeat_eq_none_iff {passes : RegistryPasses}
    {registry : Registry} {nodeId : String} {now : Nat} :
    (registry.heartbeat passes nodeId now).2 = none ↔
      nodeId ∉ registry.nodeIds := by
  rw [Registry.nodeIds_eq, List.mem_append, not_or,
    ← @Registry.ledShard_eq_none_iff passes,
    ← @Registry.followedShard_eq_none_iff passes]
  unfold heartbeat
  cases registry.ledShard passes nodeId with
  | some shard =>
      simp
  | none =>
      cases registry.followedShard passes nodeId with
      | some shard => simp
      | none => simp

namespace CoordinatorService

variable {beating reporting : RegistryPasses} {registry : Registry}
variable {nodeId : String} {leads : Bool} {now : Nat}

/-- A beat tells a node that it is known exactly if it is listed. -/
theorem heartbeat_known_iff :
    (heartbeat beating reporting registry ⟨nodeId, leads⟩ now).2.known =
        true ↔
      nodeId ∈ registry.nodeIds := by
  have known := @Registry.heartbeat_eq_none_iff beating registry nodeId now
  unfold heartbeat
  dsimp only
  split
  next both =>
    rw [Bool.and_eq_true, Option.isSome_iff_ne_none, ne_eq, known,
      not_not] at both
    simpa using both.2
  · rw [Option.isSome_iff_ne_none, ne_eq, known, not_not]

/-- A beat refreshes the node's entry, and of a known node that leads is then a
report. -/
theorem heartbeat_eq :
    (heartbeat beating reporting registry ⟨nodeId, leads⟩ now).1 =
      if leads = true ∧ nodeId ∈ registry.nodeIds then
        (RegistryOp.reportRaftLeader reporting nodeId now).step
          ((RegistryOp.heartbeat beating nodeId now).step registry)
      else
        (RegistryOp.heartbeat beating nodeId now).step registry := by
  have known := @Registry.heartbeat_eq_none_iff beating registry nodeId now
  have both : (leads && (registry.heartbeat beating nodeId now).2.isSome) =
      true ↔ leads = true ∧ nodeId ∈ registry.nodeIds := by
    rw [Bool.and_eq_true, Option.isSome_iff_ne_none, ne_eq, known, not_not]
  rw [← if_congr both rfl rfl]
  unfold heartbeat
  dsimp only
  split
  · rfl
  · rfl

end CoordinatorService

/-! ## Every node in its place -/

/-- No node is listed twice, and every entry is a node at its own address and
shard. -/
structure Registry.InPlace {Member : Type} (nodeOf : Member → ShardNode)
    (registry : Registry) : Prop where
  unique : registry.nodeIds.Nodup
  placed : ∀ shard, ∀ info ∈ (registry.cellAt shard).nodes,
    ∃ member, (nodeOf member).shardId = shard ∧
      info.nodeId = (nodeOf member).nodeId ∧
      info.address = (nodeOf member).address

section InPlace

variable {Member : Type} {nodeOf : Member → ShardNode} {registry : Registry}

theorem Registry.InPlace.step (inPlace : registry.InPlace nodeOf)
    {op : RegistryOp} (notRegistering : op.NotRegistering) :
    (op.step registry).InPlace nodeOf where
  unique := by
    rw [RegistryOp.nodup_step_iff inPlace.unique]
    cases op with
    | registerAt request now => exact absurd rfl (notRegistering request now)
    | _ => trivial
  placed shard info member := by
    obtain ⟨old, listed, same⟩ :=
      RegistryOp.onlyKnown_step registry notRegistering shard info member
    simp only [NodeInfo.identity, Prod.mk.injEq] at same
    rw [← same.1, ← same.2]
    exact inPlace.placed shard old listed

/-- A node that is not listed registers in its place. -/
theorem Registry.InPlace.register (inPlace : registry.InPlace nodeOf)
    {member : Member} (absent : (nodeOf member).nodeId ∉ registry.nodeIds)
    (now : Nat) :
    (registry.registerAt (nodeOf member).registration now).1.InPlace
      nodeOf where
  unique := by
    have registers :=
      (RegistryOp.nodup_step_iff inPlace.unique
        (.registerAt (nodeOf member).registration now)).mpr
    apply registers
    intro _ elsewhere
    apply absent
    rw [Registry.nodeIds_eq]
    have listed : (nodeOf member).nodeId ∈ Registry.leaderIds registry.leaders ++
        Registry.followerIds (registry.followers.erase (nodeOf member).shardId) :=
      elsewhere
    rw [List.mem_append] at listed ⊢
    refine listed.imp_right fun follows => ?_
    have split := Registry.followerIds_split registry.followers
      (nodeOf member).shardId
    exact split.mem_iff.mpr (List.mem_append_right _ follows)
  placed shard info listed := by
    by_cases admitted :
        registry.admits (nodeOf member).registration now = true
    · rw [Registry.cellAt_registerAt_follower admitted rfl] at listed
      split at listed
      next same =>
        subst same
        rcases ShardCell.mem_nodes_enter listed with rfl | before
        · exact ⟨member, rfl, rfl, rfl⟩
        · exact inPlace.placed _ info before
      · exact inPlace.placed _ info listed
    · rw [Registry.registerAt_of_not_admits
        (Bool.eq_false_of_not_eq_true admitted)] at listed
      exact inPlace.placed _ info listed

private theorem Registry.inPlace_of_nodeIds_nil
    (nobody : registry.nodeIds = []) : registry.InPlace nodeOf where
  unique := by
    rw [nobody]
    exact List.nodup_nil
  placed shard info listed := by
    have member : info.nodeId ∈ registry.nodeIds :=
      List.mem_map.mpr ⟨(shard, info),
        Registry.mem_entries_iff_mem_nodes.mpr listed, rfl⟩
    rw [nobody] at member
    cases member

/-- Calls that are no registrations keep every node in its place and list no
node. -/
theorem Registry.InPlace.quiet_calls {ops : List RegistryOp}
    (inPlace : registry.InPlace nodeOf)
    (notRegistering : ∀ op ∈ ops, op.NotRegistering) :
    (Runs.final RegistryOp.step registry ops).InPlace nodeOf ∧
      (Runs.final RegistryOp.step registry ops).shardCount =
        registry.shardCount ∧
      (Runs.final RegistryOp.step registry ops).nodeIds ⊆
        registry.nodeIds := by
  have kept : ∀ (after : Registry) (op : RegistryOp),
      after.InPlace nodeOf ∧ after.shardCount = registry.shardCount ∧
          after.nodeIds ⊆ registry.nodeIds →
        op.NotRegistering →
        (op.step after).InPlace nodeOf ∧
          (op.step after).shardCount = registry.shardCount ∧
          (op.step after).nodeIds ⊆ registry.nodeIds := by
    rintro after op ⟨inPlace, count, known⟩ notRegistering
    refine ⟨inPlace.step notRegistering, ?_, ?_⟩
    · exact (RegistryOp.keepsConfiguration_step after op).1.trans count
    · intro nodeId listed
      rcases RegistryOp.mem_nodeIds_step listed with
        before | ⟨request, now, same, -⟩
      · exact known before
      · exact absurd same (notRegistering request now)
  apply Runs.final_of_eachStep kept ⟨inPlace, rfl, List.Subset.refl _⟩
  exact Runs.eachStep_of_forall_mem
    (fun op member _ => notRegistering op member)

end InPlace

/-! ## Events as calls -/

namespace SightingEvent

variable {Member : Type} {nodeOf : Member → ShardNode} {timeout : Nat}

/-- The calls that an event makes on a registry that stays. -/
def calls (nodeOf : Member → ShardNode) (timeout : Nat)
    (registry : Registry) : SightingEvent Member → List RegistryOp
  | beat beating reporting member leads _ now =>
      .heartbeat beating (nodeOf member).nodeId now ::
        if leads = true ∧ (nodeOf member).nodeId ∈ registry.nodeIds then
          [.reportRaftLeader reporting (nodeOf member).nodeId now]
        else
          []
  | register member now =>
      [.registerAt (nodeOf member).registration now]
  | reap reaping promoting now =>
      [.reapDead reaping now timeout, .promoteOrphanedShards promoting]
  | drain nodeId => [.markDraining nodeId]
  | _ => []

theorem notRegistering_of_mem_calls {registry : Registry}
    {event : SightingEvent Member} {op : RegistryOp}
    (notRegister : ∀ member now, event ≠ register member now)
    (made : op ∈ event.calls nodeOf timeout registry) :
    op.NotRegistering := by
  intro request now same
  subst same
  cases event with
  | register member now => exact notRegister member now rfl
  | beat beating reporting member leads answered now =>
      rw [calls] at made
      split at made
      · simp at made
      · simp at made
  | _ => simp [calls] at made

end SightingEvent

namespace Sightings

section InPlace

variable {Member : Type} {nodeOf : Member → ShardNode} {fresh : Registry}
variable {shardCount : UInt32}

/-- Every node is in its place, and no node is about to register that is
listed. -/
structure Sane (nodeOf : Member → ShardNode) (shardCount : UInt32)
    (current : Sightings Member) : Prop where
  count : current.registry.shardCount = shardCount
  inPlace : current.registry.InPlace nodeOf
  absent : ∀ member, current.forgotten member = true →
    (nodeOf member).nodeId ∉ current.registry.nodeIds

private theorem sane_begin (count : fresh.shardCount = shardCount)
    (nobody : fresh.nodeIds = []) :
    Sane nodeOf shardCount (begin fresh : Sightings Member) where
  count := count
  inPlace := Registry.inPlace_of_nodeIds_nil nobody
  absent member _ := by
    rw [begin, nobody]
    exact List.not_mem_nil

variable [DecidableEq Member] {timeout : Nat}
variable {current reached : Sightings Member} {event : SightingEvent Member}

theorem registry_of_step
    (stepped : step nodeOf fresh timeout current event = some reached)
    (stays : event ≠ .restart) :
    reached.registry = Runs.final RegistryOp.step current.registry
      (event.calls nodeOf timeout current.registry) := by
  cases event with
  | beat beating reporting member leads answered now =>
      simp only [step] at stepped
      split at stepped
      · contradiction
      · rw [← Option.some.inj stepped, SightingEvent.calls, Runs.final_cons]
        refine CoordinatorService.heartbeat_eq.trans ?_
        split
        · rfl
        · rfl
  | register member now =>
      simp only [step] at stepped
      split at stepped
      · rw [← Option.some.inj stepped]
        rfl
      · contradiction
  | registrationFails member =>
      simp only [step] at stepped
      split at stepped
      · rw [← Option.some.inj stepped]
        rfl
      · contradiction
  | start member =>
      simp only [step] at stepped
      split at stepped
      · contradiction
      · rw [← Option.some.inj stepped]
        rfl
  | reap reaping promoting now =>
      rw [← Option.some.inj stepped]
      rfl
  | drain nodeId =>
      rw [← Option.some.inj stepped]
      rfl
  | restart => exact absurd rfl stays

/-- A node that will register is not known, and was going to before or has
just learnt it or has just started; and it has not registered in this step. -/
theorem forgotten_of_step {other : Member}
    (stepped : step nodeOf fresh timeout current event = some reached)
    (forgotten : reached.forgotten other = true) :
    (current.forgotten other = true ∨
      (nodeOf other).nodeId ∉ current.registry.nodeIds) ∧
    ∀ now, event ≠ .register other now := by
  cases event with
  | beat beating reporting member leads answered now =>
      refine ⟨?_, fun _ => by simp⟩
      simp only [step] at stepped
      split at stepped
      · contradiction
      · rw [← Option.some.inj stepped] at forgotten
        simp only [setForgotten] at forgotten
        split at forgotten
        next same =>
          subst same
          right
          rw [Bool.and_eq_true, Bool.not_eq_true',
            ← Bool.not_eq_true] at forgotten
          exact fun listed => forgotten.2
            (CoordinatorService.heartbeat_known_iff.mpr listed)
        · exact .inl forgotten
  | register member now =>
      simp only [step] at stepped
      split at stepped
      · rw [← Option.some.inj stepped] at forgotten
        simp only [setForgotten] at forgotten
        split at forgotten
        · contradiction
        next other =>
          refine ⟨.inl forgotten, fun later same => other ?_⟩
          exact (SightingEvent.register.inj same).1.symm
      · contradiction
  | registrationFails member =>
      refine ⟨?_, fun _ => by simp⟩
      simp only [step] at stepped
      split at stepped
      · rw [← Option.some.inj stepped] at forgotten
        simp only [setForgotten] at forgotten
        split at forgotten
        · contradiction
        · exact .inl forgotten
      · contradiction
  | start member =>
      refine ⟨?_, fun _ => by simp⟩
      simp only [step] at stepped
      split at stepped
      · contradiction
      next absent =>
        rw [← Option.some.inj stepped] at forgotten
        simp only [setForgotten] at forgotten
        split at forgotten
        next same =>
          subst same
          exact .inr absent
        · exact .inl forgotten
  | _ =>
      refine ⟨?_, fun _ => by simp⟩
      rw [← Option.some.inj stepped] at forgotten
      exact .inl forgotten

private theorem forgotten_of_register {member : Member} {now : Nat}
    (stepped : step nodeOf fresh timeout current (.register member now) =
      some reached) :
    current.forgotten member = true := by
  simp only [step] at stepped
  split at stepped
  next forgotten => exact forgotten
  · contradiction

/-! ## Registrations find their node absent -/

theorem sane_step (distinct : Function.Injective
      (fun member => (nodeOf member).nodeId))
    (count : fresh.shardCount = shardCount) (nobody : fresh.nodeIds = [])
    (sane : Sane nodeOf shardCount current)
    (stepped : step nodeOf fresh timeout current event = some reached) :
    Sane nodeOf shardCount reached := by
  by_cases restarts : event = .restart
  · subst restarts
    rw [← Option.some.inj stepped]
    refine ⟨count, Registry.inPlace_of_nodeIds_nil nobody, ?_⟩
    intro member _
    rw [nobody]
    exact List.not_mem_nil
  have after := registry_of_step stepped restarts
  by_cases registers : ∃ member now, event = .register member now
  · obtain ⟨member, now, same⟩ := registers
    subst same
    have absent := sane.absent member (forgotten_of_register stepped)
    rw [SightingEvent.calls, Runs.final_cons, Runs.final_nil] at after
    have configured := RegistryOp.keepsConfiguration_step current.registry
      (.registerAt (nodeOf member).registration now)
    rw [← after] at configured
    refine ⟨configured.1.trans sane.count, ?_, ?_⟩
    · rw [after]
      exact sane.inPlace.register absent now
    · intro other forgotten listed
      obtain ⟨before, notOther⟩ := forgotten_of_step stepped forgotten
      rw [after] at listed
      rcases RegistryOp.mem_nodeIds_step listed with
        known | ⟨request, later, same, named⟩
      · rcases before with earlier | unknown
        · exact sane.absent other earlier known
        · exact unknown known
      · rw [RegistryOp.registerAt.injEq] at same
        rw [← same.1] at named
        have one : other = member := distinct named
        exact notOther now (by rw [one])
  · have notRegistering : ∀ op ∈
        event.calls nodeOf timeout current.registry, op.NotRegistering := by
      intro op made
      refine SightingEvent.notRegistering_of_mem_calls ?_ made
      exact fun member now same => registers ⟨member, now, same⟩
    have quiet := sane.inPlace.quiet_calls notRegistering
    rw [← after] at quiet
    obtain ⟨inPlace, counted, known⟩ := quiet
    refine ⟨counted.trans sane.count, inPlace, ?_⟩
    intro other forgotten listed
    rcases (forgotten_of_step stepped forgotten).1 with earlier | unknown
    · exact sane.absent other earlier (known listed)
    · exact unknown (known listed)

theorem sane_of_leads (distinct : Function.Injective
      (fun member => (nodeOf member).nodeId))
    (count : fresh.shardCount = shardCount) (nobody : fresh.nodeIds = [])
    {events : List (SightingEvent Member)}
    (leads : Leads (step nodeOf fresh timeout) (begin fresh) events reached) :
    Sane nodeOf shardCount reached :=
  Leads.invariant (fun _ current => Sane nodeOf shardCount current)
    (sane_begin count nobody)
    (fun _ _ _ _ sane stepped =>
      sane_step distinct count nobody sane stepped)
    leads

/-- However nodes beat, register, fail and start, and whatever is lost, reaped
or drained, also when the coordinator restarts: every node is listed once, at its
own address and shard, and one that is about to register is not listed. -/
theorem nodes_listed_in_place (nodeOf : Member → ShardNode)
    (distinct : Function.Injective (fun member => (nodeOf member).nodeId))
    (shardCount : UInt32) (livenessTimeout : Nat) (vshards : List UInt32)
    (replicated : Bool) (timeout : Nat)
    (events : List (SightingEvent Member)) (reached : Sightings Member)
    (leads : Leads
      (step nodeOf
        (RegistryOp.unpopulated shardCount livenessTimeout vshards replicated)
        timeout)
      (begin
        (RegistryOp.unpopulated shardCount livenessTimeout vshards replicated))
      events reached) :
    reached.registry.ListedOnce ∧
      (∀ shard info, (shard, info) ∈ reached.registry.entries →
        ∃ member, (nodeOf member).shardId = shard ∧
          info.nodeId = (nodeOf member).nodeId ∧
          info.address = (nodeOf member).address) ∧
      ∀ member, reached.forgotten member = true →
        (nodeOf member).nodeId ∉ reached.registry.nodeIds := by
  have sane := sane_of_leads distinct rfl rfl leads
  refine ⟨?_, ?_, sane.absent⟩
  · exact (Registry.listedOnce_iff _).mpr sane.inPlace.unique
  · intro shard info listed
    exact sane.inPlace.placed shard info
      (Registry.mem_entries_iff_mem_nodes.mp listed)

end InPlace

/-! ## A restart -/

namespace Restarted

/-- Two nodes of one shard. -/
def nodeOf : Bool → ShardNode
  | true => ⟨"n1", "http://n1", 0⟩
  | false => ⟨"n2", "http://n2", 0⟩

theorem distinct : Function.Injective (fun member => (nodeOf member).nodeId) := by
  intro first second same
  revert first second
  decide

def fresh : Registry := RegistryOp.unpopulated 1 15000 [] false

def passes : RegistryPasses := ⟨.asStored, .asStored⟩

/-- Both nodes register, the first leads, and the coordinator restarts. -/
def before : List (SightingEvent Bool) :=
  [.register true 0, .register false 0, .beat passes passes true true true 1,
    .restart]

def current : Sightings Bool :=
  (replay (step nodeOf fresh 15000) (begin fresh) before).get
    (by decide +kernel)

theorem leads_current :
    Leads (step nodeOf fresh 15000) (begin fresh) before current :=
  (Option.some_get _).symm

end Restarted

theorem nodes_listed_in_place_restarted :
    Restarted.current.registry.ListedOnce ∧
      (∀ shard info, (shard, info) ∈ Restarted.current.registry.entries →
        ∃ member, (Restarted.nodeOf member).shardId = shard ∧
          info.nodeId = (Restarted.nodeOf member).nodeId ∧
          info.address = (Restarted.nodeOf member).address) ∧
      ∀ member, Restarted.current.forgotten member = true →
        (Restarted.nodeOf member).nodeId ∉
          Restarted.current.registry.nodeIds :=
  nodes_listed_in_place Restarted.nodeOf Restarted.distinct 1 15000 [] false
    15000 Restarted.before Restarted.current Restarted.leads_current

end Sightings

end AetherEngine.Coordinator
