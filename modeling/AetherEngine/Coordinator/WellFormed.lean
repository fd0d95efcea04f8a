import AetherEngine.Coordinator.Control
import AetherEngine.Coordinator.ShardMap

/-!
# The shard map is well formed

Over every run of the registry's operations the shards of the map are shards of
the cluster and the entries stand under their roles, so the number of leaders
tells whether every shard has one.
-/

namespace AetherEngine.Coordinator

open AetherEngine.Ranking
open AetherEngine.Runs
open AetherEngine.Tables

namespace ShardCell

/-- A cell holds nodes only inside the cluster, each under its role. -/
structure Sound (inside : Prop) (cell : ShardCell) : Prop where
  led : cell.leader.isSome = true → inside
  followed : cell.followers.isSome = true → inside
  leader : ∀ info, cell.leader = some info → info.role = .leader
  followers : ∀ nodes, cell.followers = some nodes →
    ∀ info ∈ nodes, info.role = .follower

/-- How often a node is listed among the followers. -/
def timesFollowing (nodeId : String) (cell : ShardCell) : Nat :=
  ((cell.followers.getD []).map NodeInfo.nodeId).count nodeId

variable {inside : Prop} {cell : ShardCell}

theorem Sound.follower_role (sound : cell.Sound inside) {info : NodeInfo}
    (member : info ∈ cell.followers.getD []) : info.role = .follower := by
  cases listed : cell.followers with
  | none => simp [listed] at member
  | some nodes =>
      rw [listed, Option.getD_some] at member
      exact sound.followers nodes listed info member

theorem Sound.reap (sound : cell.Sound inside) (now timeout : Nat) :
    (cell.reap now timeout).Sound inside := by
  constructor
  · intro leads
    obtain ⟨info, kept⟩ := Option.isSome_iff_exists.mp leads
    simp only [ShardCell.reap, Option.filter_eq_some_iff] at kept
    exact sound.led (by rw [kept.1]; rfl)
  · intro follows
    simp only [ShardCell.reap, Option.isSome_map] at follows
    exact sound.followed follows
  · intro info kept
    simp only [ShardCell.reap, Option.filter_eq_some_iff] at kept
    exact sound.leader info kept.1
  · intro nodes kept info member
    simp only [ShardCell.reap, Option.map_eq_some_iff] at kept
    obtain ⟨before, listed, rfl⟩ := kept
    exact sound.followers before listed info (List.mem_of_mem_filter member)

theorem Sound.promote (sound : cell.Sound inside) :
    cell.promote.Sound inside := by
  rw [ShardCell.promote]
  cases chosen : cell.candidate with
  | none => exact sound
  | some node =>
      have within : inside := by
        apply sound.followed
        by_contra nobody
        rw [Option.not_isSome_iff_eq_none] at nobody
        simp [candidate, nobody] at chosen
      constructor
      · exact fun _ => within
      · exact fun _ => within
      · intro info leads
        rw [← Option.some.inj leads]
      · intro nodes rest info member
        simp only at rest
        split at rest
        · contradiction
        · rw [← Option.some.inj rest] at member
          exact sound.follower_role (List.mem_of_mem_dropLast member)

theorem Sound.touch (sound : cell.Sound inside) (now : Nat) :
    (cell.touch now).Sound inside := by
  constructor
  · intro leads
    simp only [ShardCell.touch, Option.isSome_map] at leads
    exact sound.led leads
  · exact sound.followed
  · intro info leads
    simp only [ShardCell.touch, Option.map_eq_some_iff] at leads
    obtain ⟨before, led, rfl⟩ := leads
    exact sound.leader before led
  · exact sound.followers

theorem Sound.hear (sound : cell.Sound inside) (nodeId : String) (now : Nat) :
    (cell.hear nodeId now).Sound inside := by
  constructor
  · exact sound.led
  · intro follows
    simp only [ShardCell.hear, Option.isSome_map] at follows
    exact sound.followed follows
  · exact sound.leader
  · intro nodes heard info member
    simp only [ShardCell.hear, Option.map_eq_some_iff] at heard
    obtain ⟨before, listed, rfl⟩ := heard
    have role : info.role ∈ before.map NodeInfo.role := by
      have changed := List.mem_map_of_mem (f := NodeInfo.role) member
      rw [Registry.map_updateFirst] at changed
      · exact changed
      · intro node _
        rfl
    obtain ⟨other, present, same⟩ := List.mem_map.mp role
    rw [← same]
    exact sound.followers before listed other present

theorem Sound.install (sound : cell.Sound inside) {promoted : NodeInfo}
    (listed : promoted ∈ cell.followers.getD []) (now : Nat) :
    (cell.install promoted now).Sound inside := by
  have within : inside := by
    apply sound.followed
    by_contra nobody
    rw [Option.not_isSome_iff_eq_none] at nobody
    simp [nobody] at listed
  constructor
  · exact fun _ => within
  · exact fun _ => within
  · intro info leads
    rw [← Option.some.inj leads]
  · intro nodes listed info member
    rw [← Option.some.inj listed, List.mem_append] at member
    rcases member with remaining | demoted
    · exact sound.follower_role (List.mem_of_mem_eraseP remaining)
    · simp only [Option.mem_toList, Option.map_eq_some_iff] at demoted
      obtain ⟨old, -, rfl⟩ := demoted
      rfl

theorem Sound.lead (sound : cell.Sound inside) {info : NodeInfo}
    (within : inside) (role : info.role = .leader) :
    (cell.lead info).Sound inside := by
  constructor
  · exact fun _ => within
  · exact sound.followed
  · intro other leads
    rw [← Option.some.inj leads]
    exact role
  · exact sound.followers

theorem Sound.enter (sound : cell.Sound inside) {info : NodeInfo}
    (within : inside) (role : info.role = .follower) :
    (cell.enter info).Sound inside := by
  constructor
  · exact sound.led
  · exact fun _ => within
  · exact sound.leader
  · intro nodes listed other member
    obtain ⟨front, back, entered, -, before⟩ :=
      Registry.enterFollower_split (cell.followers.getD []) info
    rw [← Option.some.inj listed, entered] at member
    have known : other = info ∨ other ∈ cell.followers.getD [] := by
      rcases before with ⟨all, rfl⟩ | ⟨old, all, -⟩
      · rw [all]
        simpa [or_comm] using member
      · rw [all]
        simp only [List.mem_append, List.mem_cons] at member ⊢
        tauto
    rcases known with rfl | present
    · exact role
    · exact sound.follower_role present

/-! ## Repeated followers -/

/-- Fewer followers are not listed more often. -/
theorem timesFollowing_le_of_sublist {after : ShardCell} (nodeId : String)
    (fewer : (after.followers.getD []).Sublist (cell.followers.getD [])) :
    after.timesFollowing nodeId ≤ cell.timesFollowing nodeId :=
  (fewer.map NodeInfo.nodeId).count_le nodeId

private theorem timesFollowing_reap (cell : ShardCell) (now timeout : Nat)
    (nodeId : String) :
    (cell.reap now timeout).timesFollowing nodeId ≤
      cell.timesFollowing nodeId := by
  apply timesFollowing_le_of_sublist
  cases listed : cell.followers with
  | none => simp [ShardCell.reap, listed]
  | some nodes =>
      simp only [ShardCell.reap, listed, Option.map_some, Option.getD_some]
      exact List.filter_sublist

private theorem timesFollowing_promote (cell : ShardCell) (nodeId : String) :
    cell.promote.timesFollowing nodeId ≤ cell.timesFollowing nodeId := by
  apply timesFollowing_le_of_sublist
  rw [ShardCell.promote]
  cases chosen : cell.candidate with
  | none => exact List.Sublist.refl _
  | some node =>
      dsimp only
      split
      · exact List.nil_sublist _
      · exact List.dropLast_sublist _

private theorem timesFollowing_hear (cell : ShardCell) (other : String)
    (now : Nat)
    (nodeId : String) :
    (cell.hear other now).timesFollowing nodeId =
      cell.timesFollowing nodeId := by
  cases listed : cell.followers with
  | none => simp [timesFollowing, ShardCell.hear, listed]
  | some nodes =>
      simp only [timesFollowing, ShardCell.hear, listed, Option.map_some,
        Option.getD_some]
      rw [Registry.map_updateFirst]
      intro node _
      rfl

/-- Entering a follower lists no node twice that was not. -/
theorem timesFollowing_enter (cell : ShardCell) (info : NodeInfo)
    (nodeId : String) :
    (cell.enter info).timesFollowing nodeId ≤
      max 1 (cell.timesFollowing nodeId) := by
  simp only [timesFollowing, ShardCell.enter, Option.getD_some]
  rw [Registry.map_nodeId_enterFollower]
  split
  · exact Nat.le_max_right _ _
  · rename_i absent
    rw [List.count_append, List.count_singleton]
    by_cases same : info.nodeId = nodeId
    · subst same
      rw [List.count_eq_zero.mpr absent]
      simp
    · simp [same]

/-! ## One change of a cell -/

/-- What an operation can do to a cell; only a report of a Raft leader puts a
leader back among the followers. -/
inductive Change (inside reported : Prop) (cell : ShardCell) :
    ShardCell → Prop where
  | unchanged : Change inside reported cell cell
  | reap (now timeout : Nat) :
      Change inside reported cell (cell.reap now timeout)
  | promote : Change inside reported cell cell.promote
  | touch (now : Nat) : Change inside reported cell (cell.touch now)
  | hear (nodeId : String) (now : Nat) :
      Change inside reported cell (cell.hear nodeId now)
  | lead (info : NodeInfo) (within : inside) (role : info.role = .leader) :
      Change inside reported cell (cell.lead info)
  | enter (info : NodeInfo) (within : inside) (role : info.role = .follower) :
      Change inside reported cell (cell.enter info)
  | install (promoted : NodeInfo) (now : Nat) (report : reported)
      (listed : promoted ∈ cell.followers.getD []) :
      Change inside reported cell (cell.install promoted now)

variable {reported : Prop} {after : ShardCell}

theorem Sound.change (sound : cell.Sound inside)
    (changed : cell.Change inside reported after) : after.Sound inside := by
  cases changed with
  | unchanged => exact sound
  | reap now timeout => exact sound.reap now timeout
  | promote => exact sound.promote
  | touch now => exact sound.touch now
  | hear nodeId now => exact sound.hear nodeId now
  | lead info within role => exact sound.lead within role
  | enter info within role => exact sound.enter within role
  | install promoted now report listed => exact sound.install listed now

private theorem timesFollowing_change
    (changed : cell.Change inside reported after)
    (other : ¬ reported) (nodeId : String) :
    after.timesFollowing nodeId ≤ max 1 (cell.timesFollowing nodeId) := by
  cases changed with
  | unchanged => exact Nat.le_max_right _ _
  | reap now timeout =>
      exact (timesFollowing_reap cell now timeout nodeId).trans
        (Nat.le_max_right _ _)
  | promote =>
      exact (timesFollowing_promote cell nodeId).trans (Nat.le_max_right _ _)
  | touch now => exact Nat.le_max_right _ _
  | hear heard now =>
      rw [timesFollowing_hear]
      exact Nat.le_max_right _ _
  | lead info within role => exact Nat.le_max_right _ _
  | enter info within role => exact timesFollowing_enter cell info nodeId
  | install promoted now report listed => exact absurd report other

end ShardCell

namespace Registry

/-- The shards of the map are shards of the cluster, and every entry stands
under its role. -/
structure WellFormed (registry : Registry) : Prop where
  ledShards : ∀ shard ∈ registry.leaders, shard < registry.shardCount
  followedShards : ∀ shard ∈ registry.followers, shard < registry.shardCount
  leaders : ∀ (shard : UInt32) (info : NodeInfo),
    registry.leaders[shard]? = some info → info.role = .leader
  followers : ∀ (shard : UInt32) (nodes : List NodeInfo),
    registry.followers[shard]? = some nodes →
      ∀ info ∈ nodes, info.role = .follower

/-- A map is well formed when its cells are. -/
theorem wellFormed_iff_cells (registry : Registry) :
    registry.WellFormed ↔
      ∀ shard, (registry.cellAt shard).Sound
        (shard < registry.shardCount) := by
  constructor
  · intro wellFormed shard
    constructor
    · intro leads
      exact wellFormed.ledShards shard
        (Std.ExtTreeMap.mem_iff_isSome_getElem?.mpr leads)
    · intro follows
      exact wellFormed.followedShards shard
        (Std.ExtTreeMap.mem_iff_isSome_getElem?.mpr follows)
    · exact wellFormed.leaders shard
    · exact wellFormed.followers shard
  · intro cells
    constructor
    · intro shard member
      exact (cells shard).led (Std.ExtTreeMap.mem_iff_isSome_getElem?.mp member)
    · intro shard member
      exact (cells shard).followed
        (Std.ExtTreeMap.mem_iff_isSome_getElem?.mp member)
    · intro shard
      exact (cells shard).leader
    · intro shard
      exact (cells shard).followers

/-! ## Readiness -/

/-- The numbers of the shards that have a leader. -/
def ledNumbers (registry : Registry) : List Nat :=
  (registry.leaders.toList.map Prod.fst).map UInt32.toNat

theorem mem_ledNumbers {registry : Registry} {shard : UInt32} :
    shard.toNat ∈ registry.ledNumbers ↔ shard ∈ registry.leaders := by
  rw [ledNumbers, List.mem_map_of_injective
    (fun _ _ same => UInt32.toNat_inj.mp same), List.mem_map]
  constructor
  · intro listed
    obtain ⟨⟨key, info⟩, member, rfl⟩ := listed
    rw [mem_toList] at member
    exact Std.ExtTreeMap.mem_iff_isSome_getElem?.mpr (by rw [member]; rfl)
  · intro member
    obtain ⟨info, found⟩ := Option.isSome_iff_exists.mp
      (Std.ExtTreeMap.mem_iff_isSome_getElem?.mp member)
    exact ⟨(shard, info), (mem_toList ..).mpr found, rfl⟩

private theorem nodup_ledNumbers (registry : Registry) :
    registry.ledNumbers.Nodup :=
  (nodup_keys registry.leaders).map
    (fun _ _ same => UInt32.toNat_inj.mp same)

/-- When only shards of the cluster are led, there are as many leaders as shards
exactly when every shard is led. -/
theorem allShardsHaveLeader_iff {registry : Registry}
    (inRange : ∀ shard ∈ registry.leaders, shard < registry.shardCount) :
    registry.allShardsHaveLeader = true ↔
      ∀ shard, shard < registry.shardCount → shard ∈ registry.leaders := by
  have counted : registry.leaders.size = registry.ledNumbers.length := by
    simp [ledNumbers]
  have within : registry.ledNumbers ⊆
      List.range registry.shardCount.toNat := by
    intro number member
    obtain ⟨shard, listed, rfl⟩ := List.mem_map.mp member
    rw [List.mem_range, ← UInt32.lt_iff_toNat_lt]
    exact inRange shard
      (mem_ledNumbers.mp (List.mem_map_of_mem listed))
  have contained := List.subperm_of_subset registry.nodup_ledNumbers within
  have bounded : registry.leaders.size ≤ registry.shardCount.toNat := by
    rw [counted]
    simpa using contained.length_le
  have untruncated : registry.leaders.size.toUInt32.toNat =
      registry.leaders.size := by
    rw [Nat.toUInt32, UInt32.toNat_ofNat_of_lt']
    exact Nat.lt_of_le_of_lt bounded registry.shardCount.toNat_lt
  rw [allShardsHaveLeader, beq_iff_eq, ← UInt32.toNat_inj, untruncated]
  constructor
  · intro full shard inside
    have all := contained.perm_of_length_le (by simp [← counted, full])
    rw [← mem_ledNumbers, all.mem_iff, List.mem_range]
    exact UInt32.lt_iff_toNat_lt.mp inside
  · intro led
    apply Nat.le_antisymm bounded
    have covered : List.range registry.shardCount.toNat ⊆
        registry.ledNumbers := by
      intro number member
      rw [List.mem_range] at member
      have small := Nat.lt_trans member registry.shardCount.toNat_lt
      have shown : (UInt32.ofNat number).toNat = number :=
        UInt32.toNat_ofNat_of_lt' small
      rw [← shown, mem_ledNumbers]
      apply led
      rw [UInt32.lt_iff_toNat_lt, shown]
      exact member
    have fits := (List.subperm_of_subset List.nodup_range covered).length_le
    rw [counted]
    simpa using fits

end Registry

/-! ## Runs -/

/-- One call on the registry, of those that see nodes and those that set it up
or carry the operator's intent. -/
inductive MapOp where
  | onNodes (call : RegistryOp)
  | withLivenessTimeout (timeout : Nat)
  | withVshards (v : UInt32)
  | withReplicatedAuthority
  | reassignVshard (vshard group : UInt32)
  | applyDrainMarker (nodeId : String)
  | setAuthority (vshards : List UInt32) (draining : List String)

namespace MapOp

def step (registry : Registry) : MapOp → Registry
  | onNodes call => RegistryOp.step registry call
  | withLivenessTimeout timeout => registry.withLivenessTimeout timeout
  -- without shards there is no table to lay out, and the program stops
  | withVshards v => (registry.withVshards v).getD registry
  | withReplicatedAuthority => registry.withReplicatedAuthority
  | reassignVshard vshard group => (registry.reassignVshard vshard group).1
  | applyDrainMarker nodeId => registry.applyDrainMarker nodeId
  | setAuthority vshards draining => registry.setAuthority vshards draining

/-- A report of a node that it leads its group. -/
def IsReport (call : MapOp) : Prop :=
  ∃ passes nodeId now, call = onNodes (.reportRaftLeader passes nodeId now)

private theorem change_onNodes (registry : Registry) (call : RegistryOp)
    (shard : UInt32) :
    (registry.cellAt shard).Change (shard < registry.shardCount)
      (IsReport (onNodes call))
      ((RegistryOp.step registry call).cellAt shard) := by
  cases call with
  | registerAt request now =>
      by_cases admitted : registry.admits request now = true
      · have inside := (Registry.admits_spec admitted).1
        cases role : request.role with
        | unspecified =>
            exact absurd role (Registry.admits_spec admitted).2.1
        | leader =>
            rw [RegistryOp.step,
              Registry.cellAt_registerAt_leader admitted role]
            by_cases same : shard = request.shardId
            · rw [if_pos same, same]
              exact .lead _ inside role
            · rw [if_neg same]
              exact .unchanged
        | follower =>
            rw [RegistryOp.step,
              Registry.cellAt_registerAt_follower admitted role]
            by_cases same : shard = request.shardId
            · rw [if_pos same, same]
              exact .enter _ inside role
            · rw [if_neg same]
              exact .unchanged
      · rw [RegistryOp.step, Registry.registerAt_of_not_admits
          (Bool.eq_false_of_not_eq_true admitted)]
        exact .unchanged
  | heartbeat passes nodeId now =>
      rw [RegistryOp.step, Registry.cellAt_heartbeat]
      split
      · exact .touch now
      · split
        · exact .hear nodeId now
        · exact .unchanged
  | reportRaftLeader passes nodeId now =>
      rw [RegistryOp.step]
      rcases registry.reportRaftLeader_cases passes nodeId now with
        ⟨led, -, after⟩ | ⟨-, -, after⟩ | ⟨followed, promoted, -, -, first, after⟩
      · rw [after, Registry.cellAt_touchLeader]
        by_cases same : shard = led
        · rw [if_pos same, same]
          exact .touch now
        · rw [if_neg same]
          exact .unchanged
      · rw [after]
        exact .unchanged
      · rw [after, Registry.cellAt_installLeader]
        by_cases same : shard = followed
        · rw [if_pos same, same]
          exact .install promoted now ⟨passes, nodeId, now, rfl⟩
            (List.mem_of_find?_eq_some first)
        · rw [if_neg same]
          exact .unchanged
  | reapDead passes now timeout =>
      rw [RegistryOp.step, Registry.cellAt_reapDead]
      exact .reap now timeout
  | promoteOrphanedShards passes =>
      rw [RegistryOp.step, Registry.cellAt_promoteOrphanedShards]
      exact .promote
  | markDraining nodeId =>
      have kept : (RegistryOp.step registry (.markDraining nodeId)).cellAt
          shard = registry.cellAt shard := by
        simp only [RegistryOp.step, Registry.markDraining]
        split
        · rfl
        · rfl
      rw [kept]
      exact .unchanged

/-- What is not about nodes leaves the map alone. -/
theorem keepsMap_step (registry : Registry) {call : MapOp}
    (aside : ∀ nodes, call ≠ onNodes nodes) :
    (step registry call).shardCount = registry.shardCount ∧
      ∀ shard, (step registry call).cellAt shard = registry.cellAt shard := by
  cases call with
  | onNodes nodes => exact absurd rfl (aside nodes)
  | withLivenessTimeout timeout => exact ⟨rfl, fun _ => rfl⟩
  | withVshards v =>
      simp only [step, Registry.withVshards]
      split
      · exact ⟨rfl, fun _ => rfl⟩
      · exact ⟨rfl, fun _ => rfl⟩
  | withReplicatedAuthority => exact ⟨rfl, fun _ => rfl⟩
  | reassignVshard vshard group =>
      simp only [step, Registry.reassignVshard]
      split
      · exact ⟨rfl, fun _ => rfl⟩
      · exact ⟨rfl, fun _ => rfl⟩
  | applyDrainMarker nodeId => exact ⟨rfl, fun _ => rfl⟩
  | setAuthority vshards draining => exact ⟨rfl, fun _ => rfl⟩

private theorem shardCount_step (registry : Registry) (call : MapOp) :
    (step registry call).shardCount = registry.shardCount := by
  cases call with
  | onNodes nodes =>
      exact (RegistryOp.keepsConfiguration_step registry nodes).1
  | _ => exact (keepsMap_step registry (by simp)).1

theorem change_step (registry : Registry) (call : MapOp) (shard : UInt32) :
    (registry.cellAt shard).Change (shard < registry.shardCount)
      call.IsReport ((step registry call).cellAt shard) := by
  cases call with
  | onNodes nodes =>
      exact change_onNodes registry nodes shard
  | _ =>
      rw [(keepsMap_step registry (by simp)).2]
      exact .unchanged

private theorem wellFormed_step {registry : Registry}
    (wellFormed : registry.WellFormed) (call : MapOp) :
    (step registry call).WellFormed := by
  rw [Registry.wellFormed_iff_cells] at wellFormed ⊢
  intro shard
  rw [shardCount_step]
  exact (wellFormed shard).change (change_step registry call shard)

private theorem wellFormed_new (shardCount : UInt32) :
    (Registry.new shardCount).WellFormed := by
  constructor
  · intro shard member
    exact absurd member Std.ExtTreeMap.not_mem_empty
  · intro shard member
    exact absurd member Std.ExtTreeMap.not_mem_empty
  · intro shard info found
    simp [Registry.new] at found
  · intro shard nodes found
    simp [Registry.new] at found

/-- Whatever is not a report lists no node more than once among the followers
of a shard, unless it was so listed before. -/
def KeepsFollowersApart (registry : Registry) (call : MapOp) : Prop :=
  ¬ call.IsReport → ∀ shard nodeId,
    ((step registry call).cellAt shard).timesFollowing nodeId ≤
      max 1 ((registry.cellAt shard).timesFollowing nodeId)

/-- The map has the shards of the cluster and tells whether all of them have a
leader. -/
structure Accurate (shardCount : UInt32) (registry : Registry) : Prop where
  count : registry.shardCount = shardCount
  wellFormed : registry.WellFormed
  ready : registry.allShardsHaveLeader = true ↔
    ∀ shard, shard < shardCount → shard ∈ registry.leaders

private theorem accurate_of_wellFormed {registry : Registry}
    (wellFormed : registry.WellFormed) :
    Accurate registry.shardCount registry :=
  ⟨rfl, wellFormed,
    Registry.allShardsHaveLeader_iff wellFormed.ledShards⟩

/-- In every run the map stays well formed and its readiness test exact, and a
node is listed twice among the followers of a shard only after a report. -/
theorem map_accurate_throughout (shardCount : UInt32) (run : List MapOp) :
    Throughout step (Accurate shardCount) (Registry.new shardCount) run ∧
      EachStep step KeepsFollowersApart (Registry.new shardCount) run ∧
      ((∀ call ∈ run, ¬ call.IsReport) →
        Throughout step
          (fun registry => ∀ shard,
            (((registry.cellAt shard).followers.getD []).map
              NodeInfo.nodeId).Nodup)
          (Registry.new shardCount) run) := by
  refine ⟨?_, ?_, ?_⟩
  · have always : EachStep step (fun _ _ => True)
        (Registry.new shardCount) run :=
      eachStep_of_forall_mem (fun _ _ _ => trivial)
    refine throughout_of_eachStep ?_ ?_ always
    · intro registry call accurate _
      have counted := accurate.count
      subst counted
      rw [← shardCount_step registry call]
      exact accurate_of_wellFormed (wellFormed_step accurate.wellFormed call)
    · exact accurate_of_wellFormed (wellFormed_new shardCount)
  · apply eachStep_of_forall_mem
    intro call _ registry other shard nodeId
    exact ShardCell.timesFollowing_change (change_step registry call shard)
      other nodeId
  · intro silent
    have others : EachStep step (fun _ call => ¬ call.IsReport)
        (Registry.new shardCount) run :=
      eachStep_of_forall_mem (fun call member _ => silent call member)
    refine throughout_of_eachStep ?_ ?_ others
    · intro registry call apart other shard
      rw [List.nodup_iff_count_le_one]
      intro nodeId
      have once := List.nodup_iff_count_le_one.mp (apart shard) nodeId
      have kept := ShardCell.timesFollowing_change
        (change_step registry call shard) other nodeId
      exact kept.trans (Nat.max_le.mpr ⟨Nat.le_refl 1, once⟩)
    · intro shard
      simp [Registry.new, Registry.cellAt]

end MapOp

end AetherEngine.Coordinator
