import AetherEngine.Coordinator.Registry
import AetherEngine.Foundations.Runs

/-!
# Node ids in the registry

Liveness, leadership and reaping move node entries about or drop them; only a
registration adds one.  A registration replaces an entry of its node only in the
place it registers for, so a node that registers again under another role or for
another shard is listed twice.  Node ids stay unique through a run exactly when
no admitted registration finds its node listed in another place.
-/

namespace AetherEngine.Coordinator

open AetherEngine.Ranking
open AetherEngine.Runs
open AetherEngine.Tables

namespace Registry

/-! ## Node ids -/

def leaderIds (leaders : Std.ExtTreeMap UInt32 NodeInfo) : List String :=
  leaders.toList.map (fun entry => entry.2.nodeId)

def followerIds (followers : Std.ExtTreeMap UInt32 (List NodeInfo)) :
    List String :=
  followers.toList.flatMap (fun group => group.2.map NodeInfo.nodeId)

/-- The node ids of all entries. -/
def nodeIds (registry : Registry) : List String :=
  registry.entries.map (fun entry => entry.2.nodeId)

theorem nodeIds_eq (registry : Registry) :
    registry.nodeIds =
      leaderIds registry.leaders ++ followerIds registry.followers := by
  rw [nodeIds, entries, List.map_append, leaderIds, followerIds,
    List.map_flatMap]
  simp only [List.map_map]
  rfl

theorem leaderIds_insert (leaders : Std.ExtTreeMap UInt32 NodeInfo)
    (shard : UInt32) (info : NodeInfo) :
    (leaderIds (leaders.insert shard info)).Perm
      (info.nodeId :: leaderIds (leaders.erase shard)) := by
  have inserted := toList_insert_perm leaders shard info
  exact inserted.map _

theorem leaderIds_split (leaders : Std.ExtTreeMap UInt32 NodeInfo)
    (shard : UInt32) :
    (leaderIds leaders).Perm
      ((leaders[shard]?.map NodeInfo.nodeId).toList ++
        leaderIds (leaders.erase shard)) := by
  cases found : leaders[shard]? with
  | none =>
      rw [erase_of_getElem?_none found]
      exact List.Perm.refl _
  | some info =>
      exact (toList_perm_of_getElem? found).map (fun entry => entry.2.nodeId)

theorem followerIds_insert (followers : Std.ExtTreeMap UInt32 (List NodeInfo))
    (shard : UInt32) (nodes : List NodeInfo) :
    (followerIds (followers.insert shard nodes)).Perm
      (nodes.map NodeInfo.nodeId ++ followerIds (followers.erase shard)) := by
  have inserted := toList_insert_perm followers shard nodes
  exact inserted.flatMap_right _

theorem followerIds_split (followers : Std.ExtTreeMap UInt32 (List NodeInfo))
    (shard : UInt32) :
    (followerIds followers).Perm
      ((followers[shard]?.getD []).map NodeInfo.nodeId ++
        followerIds (followers.erase shard)) := by
  cases found : followers[shard]? with
  | none =>
      rw [erase_of_getElem?_none found]
      exact List.Perm.refl _
  | some nodes =>
      exact (toList_perm_of_getElem? found).flatMap_right
        (fun group => group.2.map NodeInfo.nodeId)

/-- Replacing a follower list by one with the same ids keeps the ids. -/
theorem followerIds_replace
    {followers : Std.ExtTreeMap UInt32 (List NodeInfo)} {shard : UInt32}
    {nodes nodes' : List NodeInfo} (found : followers[shard]? = some nodes)
    (same : (nodes'.map NodeInfo.nodeId).Perm (nodes.map NodeInfo.nodeId)) :
    (followerIds (followers.insert shard nodes')).Perm
      (followerIds followers) := by
  have split := followerIds_split followers shard
  rw [found, Option.getD_some] at split
  exact (followerIds_insert followers shard nodes').trans
    ((same.append_right _).trans split.symm)

/-- What the change does not touch is seen as before. -/
theorem map_updateFirst {α β : Type} (view : α → β) {matching : α → Bool}
    {change : α → α}
    (same : ∀ value, matching value = true →
      view (change value) = view value)
    (values : List α) :
    (updateFirst matching change values).map view = values.map view := by
  induction values with
  | nil =>
      rfl
  | cons value rest inductionHypothesis =>
      by_cases found : matching value = true
      · simp [updateFirst, found, same value found]
      · simp [updateFirst, found, inductionHypothesis]

theorem alter_eq_insert {α : Type} {table : Std.ExtTreeMap UInt32 α}
    {key : UInt32} {change : Option α → Option α} (value : α)
    (changed : change table[key]? = some value) :
    table.alter key change = table.insert key value := by
  apply Std.ExtTreeMap.ext_getElem?
  intro other
  rw [getElem?_alter, getElem?_insert, changed]

/-! ## Which entries an operation touches -/

theorem ledShard_spec {passes : RegistryPasses} {registry : Registry}
    {nodeId : String} {shard : UInt32}
    (led : registry.ledShard passes nodeId = some shard) :
    ∃ info, registry.leaders[shard]? = some info ∧ info.nodeId = nodeId := by
  rw [ledShard, Option.map_eq_some_iff] at led
  obtain ⟨⟨found, info⟩, located, rfl⟩ := led
  have member := List.mem_of_find?_eq_some located
  have same := List.find?_some located
  rw [IterationOrder.mem_arrange, mem_toList] at member
  exact ⟨info, member, by simpa using same⟩

theorem ledShard_eq_none_iff {passes : RegistryPasses} {registry : Registry}
    {nodeId : String} :
    registry.ledShard passes nodeId = none ↔
      nodeId ∉ leaderIds registry.leaders := by
  rw [ledShard, Option.map_eq_none_iff, List.find?_eq_none, leaderIds,
    List.mem_map]
  constructor
  · intro absent membership
    rcases membership with ⟨entry, member, same⟩
    exact absent entry (by simpa using member) (by simpa using same)
  · intro absent entry member same
    exact absent ⟨entry, by simpa using member, by simpa using same⟩

theorem followedShard_spec {passes : RegistryPasses} {registry : Registry}
    {nodeId : String} {shard : UInt32}
    (followed : registry.followedShard passes nodeId = some shard) :
    ∃ nodes, registry.followers[shard]? = some nodes ∧
      ∃ info ∈ nodes, info.nodeId = nodeId := by
  rw [followedShard, Option.map_eq_some_iff] at followed
  obtain ⟨⟨found, nodes⟩, located, rfl⟩ := followed
  have member := List.mem_of_find?_eq_some located
  have same := List.find?_some located
  rw [IterationOrder.mem_arrange, mem_toList] at member
  exact ⟨nodes, member, by simpa using same⟩

theorem followedShard_eq_none_iff {passes : RegistryPasses}
    {registry : Registry} {nodeId : String} :
    registry.followedShard passes nodeId = none ↔
      nodeId ∉ followerIds registry.followers := by
  rw [followedShard, Option.map_eq_none_iff, List.find?_eq_none, followerIds,
    List.mem_flatMap]
  constructor
  · intro absent membership
    rcases membership with ⟨group, member, listed⟩
    apply absent group (by simpa using member)
    simpa using listed
  · intro absent group member listed
    exact absent ⟨group, by simpa using member, by simpa using listed⟩

/-! ## Operations that keep the ids -/

theorem nodeIds_touchLeader {registry : Registry} {shard : UInt32}
    {info : NodeInfo} (found : registry.leaders[shard]? = some info)
    (now : Nat) :
    (registry.touchLeader shard now).nodeIds.Perm registry.nodeIds := by
  rw [nodeIds_eq, nodeIds_eq]
  apply List.Perm.append_right
  have split := leaderIds_split registry.leaders shard
  rw [found, Option.map_some] at split
  rw [touchLeader, alter_eq_insert { info with lastSeen := now }
    (by rw [found, Option.map_some])]
  exact (leaderIds_insert _ _ _).trans split.symm

theorem nodeIds_heartbeat (passes : RegistryPasses) (registry : Registry)
    (nodeId : String) (now : Nat) :
    (registry.heartbeat passes nodeId now).1.nodeIds.Perm
      registry.nodeIds := by
  cases led : registry.ledShard passes nodeId with
  | some shard =>
      obtain ⟨info, found, -⟩ := ledShard_spec led
      simp only [heartbeat, led]
      exact nodeIds_touchLeader found now
  | none =>
      cases followed : registry.followedShard passes nodeId with
      | none =>
          simp only [heartbeat, led, followed]
          exact List.Perm.refl _
      | some shard =>
          obtain ⟨nodes, found, -⟩ := followedShard_spec followed
          simp only [heartbeat, led, followed]
          rw [nodeIds_eq, nodeIds_eq]
          apply List.Perm.append_left
          rw [alter_eq_insert _ (by rw [found, Option.map_some])]
          apply followerIds_replace found
          rw [map_updateFirst]
          intro node _
          rfl

private theorem map_nodeId_eraseP {nodes : List NodeInfo} {nodeId : String}
    (listed : nodeId ∈ nodes.map NodeInfo.nodeId) :
    (nodes.map NodeInfo.nodeId).Perm
      (nodeId :: (nodes.eraseP (fun node => node.nodeId = nodeId)).map
        NodeInfo.nodeId) := by
  induction nodes with
  | nil =>
      simp at listed
  | cons node rest inductionHypothesis =>
      by_cases same : node.nodeId = nodeId
      · simp [same]
      · rw [List.map_cons, List.mem_cons] at listed
        have later := listed.resolve_left (Ne.symm same)
        rw [List.eraseP_cons_of_neg (by simpa using same), List.map_cons,
          List.map_cons]
        exact (inductionHypothesis later).cons _ |>.trans
          (List.Perm.swap ..)

private theorem nodeIds_installLeader {registry : Registry} {shard : UInt32}
    {nodes : List NodeInfo} {promoted : NodeInfo}
    (found : registry.followers[shard]? = some nodes)
    (member : promoted ∈ nodes) (now : Nat) :
    (registry.installLeader shard nodes promoted now).nodeIds.Perm
      registry.nodeIds := by
  have leadersSplit := leaderIds_split registry.leaders shard
  have followersSplit := followerIds_split registry.followers shard
  have erased := map_nodeId_eraseP
    (List.mem_map_of_mem (f := NodeInfo.nodeId) member)
  rw [found, Option.getD_some] at followersSplit
  rw [nodeIds_eq, nodeIds_eq, List.perm_iff_count]
  intro nodeId
  have leadersBefore := leadersSplit.count_eq nodeId
  have followersBefore := followersSplit.count_eq nodeId
  have erasedCount := erased.count_eq nodeId
  cases old : registry.leaders[shard]? with
  | none =>
      have leadersAfter := (leaderIds_insert registry.leaders shard
        { promoted with role := .leader, lastSeen := now }).count_eq nodeId
      have followersAfter := (followerIds_insert registry.followers shard
        (nodes.eraseP
          (fun node => node.nodeId = promoted.nodeId))).count_eq nodeId
      simp only [installLeader, old, Option.map_none, Option.toList_none,
        List.count_append, List.count_cons, List.count_nil] at *
      omega
  | some leader =>
      have leadersAfter := (leaderIds_insert registry.leaders shard
        { promoted with role := .leader, lastSeen := now }).count_eq nodeId
      have followersAfter := (followerIds_insert registry.followers shard
        (nodes.eraseP (fun node => node.nodeId = promoted.nodeId) ++
          [{ leader with role := .follower }])).count_eq nodeId
      simp only [installLeader, old, Option.map_some, Option.toList_some,
        List.count_append, List.map_append, List.map_singleton,
        List.count_cons, List.count_nil] at *
      omega

private theorem nodeIds_reportRaftLeader (passes : RegistryPasses)
    (registry : Registry) (nodeId : String) (now : Nat) :
    (registry.reportRaftLeader passes nodeId now).1.nodeIds.Perm
      registry.nodeIds := by
  cases led : registry.ledShard passes nodeId with
  | some shard =>
      obtain ⟨info, found, -⟩ := ledShard_spec led
      simp only [reportRaftLeader, led]
      exact nodeIds_touchLeader found now
  | none =>
      cases followed : registry.followedShard passes nodeId with
      | none =>
          simp only [reportRaftLeader, led, followed]
          exact List.Perm.refl _
      | some shard =>
          obtain ⟨nodes, found, info, member, same⟩ :=
            followedShard_spec followed
          simp only [reportRaftLeader, led, followed, found,
            Option.getD_some]
          cases located : nodes.find? (fun node => node.nodeId = nodeId) with
          | none =>
              exact List.Perm.refl _
          | some promoted =>
              exact nodeIds_installLeader found
                (List.mem_of_find?_eq_some located) now

private theorem nodeIds_promoteShard (registry : Registry) (shard : UInt32) :
    (registry.promoteShard shard).1.nodeIds.Perm registry.nodeIds := by
  by_cases led : shard ∈ registry.leaders
  · rw [promoteShard, if_pos led]
  · have noLeader : registry.leaders[shard]? = none :=
      Std.ExtTreeMap.getElem?_eq_none led
    cases last : (registry.followers[shard]?.getD []).getLast? with
    | none =>
        simp only [promoteShard, if_neg led, last]
        exact List.Perm.refl _
    | some node =>
        have nodesAre := List.dropLast_append_getLast? node last
        have followersSplit := followerIds_split registry.followers shard
        have leadersSplit := leaderIds_split registry.leaders shard
        rw [noLeader, Option.map_none, Option.toList_none,
          List.nil_append] at leadersSplit
        simp only [promoteShard, if_neg led, last]
        generalize registry.followers[shard]?.getD [] = nodes at *
        have followersAfter :
            (followerIds
              (if nodes.dropLast.isEmpty then
                registry.followers.erase shard
              else
                registry.followers.insert shard nodes.dropLast)).Perm
              (nodes.dropLast.map NodeInfo.nodeId ++
                followerIds (registry.followers.erase shard)) := by
          by_cases empty : nodes.dropLast.isEmpty
          · rw [if_pos empty, List.isEmpty_iff.mp empty]
            exact List.Perm.refl _
          · rw [if_neg empty]
            exact followerIds_insert _ _ _
        have leadersAfter := leaderIds_insert registry.leaders shard
          { node with role := .leader }
        rw [nodeIds_eq, nodeIds_eq, List.perm_iff_count]
        intro nodeId
        have leadersCount := leadersAfter.count_eq nodeId
        have followersCount := followersAfter.count_eq nodeId
        have leadersBefore := leadersSplit.count_eq nodeId
        have followersBefore := followersSplit.count_eq nodeId
        rw [← nodesAre] at followersBefore
        simp only [List.count_append, List.map_append, List.map_singleton,
          List.count_cons, List.count_nil] at *
        omega

private theorem nodeIds_promoteOrphanedShards (passes : RegistryPasses)
    (registry : Registry) :
    (registry.promoteOrphanedShards passes).1.nodeIds.Perm
      registry.nodeIds := by
  rw [promoteOrphanedShards]
  generalize ([] : List (UInt32 × String)) = promotions
  induction (passes.followers.arrange registry.followers.toList).map
      Prod.fst generalizing registry promotions with
  | nil =>
      exact List.Perm.refl _
  | cons shard rest inductionHypothesis =>
      exact (inductionHypothesis _ _).trans
        (nodeIds_promoteShard registry shard)

/-! ## Reaping drops ids -/

theorem leaderIds_erase_subperm (leaders : Std.ExtTreeMap UInt32 NodeInfo)
    (shard : UInt32) :
    (leaderIds (leaders.erase shard)).Subperm (leaderIds leaders) := by
  have kept := List.sublist_append_right
    ((leaders[shard]?.map NodeInfo.nodeId).toList)
    (leaderIds (leaders.erase shard))
  exact kept.subperm.trans (leaderIds_split leaders shard).symm.subperm

private theorem leaderIds_foldl_erase_subperm
    (dead : List (UInt32 × NodeInfo))
    (leaders : Std.ExtTreeMap UInt32 NodeInfo) :
    (leaderIds (dead.foldl
      (fun leaders entry => leaders.erase entry.1) leaders)).Subperm
      (leaderIds leaders) := by
  induction dead generalizing leaders with
  | nil =>
      exact List.Subperm.refl _
  | cons entry rest inductionHypothesis =>
      exact (inductionHypothesis _).trans
        (leaderIds_erase_subperm leaders entry.1)

private theorem followerIds_filter_sublist
    (followers : Std.ExtTreeMap UInt32 (List NodeInfo))
    (keep : NodeInfo → Bool) :
    (followerIds
      (followers.map (fun _ nodes => List.filter keep nodes))).Sublist
      (followerIds followers) := by
  rw [followerIds, followerIds, Std.ExtTreeMap.toList_map, List.flatMap_map]
  induction followers.toList with
  | nil =>
      exact List.Sublist.refl _
  | cons group rest inductionHypothesis =>
      rw [List.flatMap_cons, List.flatMap_cons]
      exact (List.filter_sublist.map _).append inductionHypothesis

private theorem nodeIds_reapDead_subperm (passes : RegistryPasses)
    (registry : Registry) (now timeout : Nat) :
    (registry.reapDead passes now timeout).1.nodeIds.Subperm
      registry.nodeIds := by
  rw [nodeIds_eq, nodeIds_eq]
  exact (leaderIds_foldl_erase_subperm _ _).append
    (followerIds_filter_sublist _ _).subperm

/-! ## A registration adds an id -/

/-- A registration that is accepted. -/
def admits (registry : Registry) (request : RegisterNodeRequest)
    (now : Nat) : Bool :=
  request.shardId < registry.shardCount &&
    match request.role with
    | .leader => (registry.liveRival request now).isNone
    | .follower => true
    | .unspecified => false

/-- The node ids listed outside the place a request registers for. -/
def elsewhere (registry : Registry) (request : RegisterNodeRequest) :
    List String :=
  match request.role with
  | .leader =>
      leaderIds (registry.leaders.erase request.shardId) ++
        followerIds registry.followers
  | .follower =>
      leaderIds registry.leaders ++
        followerIds (registry.followers.erase request.shardId)
  | .unspecified => registry.nodeIds

theorem registerAt_of_not_admits {registry : Registry}
    {request : RegisterNodeRequest} {now : Nat}
    (refused : registry.admits request now = false) :
    (registry.registerAt request now).1 = registry := by
  by_cases outside : registry.shardCount ≤ request.shardId
  · rw [registerAt, if_pos outside]
  · have inside := UInt32.not_le.mp outside
    rw [registerAt, if_neg outside]
    cases role : request.role with
    | unspecified =>
        rfl
    | follower =>
        simp [admits, inside, role] at refused
    | leader =>
        cases rival : registry.liveRival request now with
        | none =>
            simp [admits, inside, role, rival] at refused
        | some current =>
            rfl

theorem map_nodeId_enterFollower (nodes : List NodeInfo) (info : NodeInfo) :
    (enterFollower nodes info).map NodeInfo.nodeId =
      if info.nodeId ∈ nodes.map NodeInfo.nodeId then
        nodes.map NodeInfo.nodeId
      else
        nodes.map NodeInfo.nodeId ++ [info.nodeId] := by
  have listed :
      nodes.any (fun node => node.nodeId = info.nodeId) = true ↔
        info.nodeId ∈ nodes.map NodeInfo.nodeId := by
    simp
  by_cases present : info.nodeId ∈ nodes.map NodeInfo.nodeId
  · rw [enterFollower, if_pos (listed.mpr present), if_pos present]
    apply map_updateFirst
    intro node same
    simpa using (of_decide_eq_true same).symm
  · rw [enterFollower, if_neg (mt listed.mp present), if_neg present,
      List.map_append, List.map_singleton]

private theorem nodeIds_registerAt_leader {registry : Registry}
    {request : RegisterNodeRequest} {now : Nat}
    (role : request.role = .leader)
    (admitted : registry.admits request now = true) :
    (registry.registerAt request now).1.nodeIds.Perm
      (request.nodeId :: registry.elsewhere request) := by
  simp only [admits, role, Bool.and_eq_true, decide_eq_true_eq,
    Option.isNone_iff_eq_none] at admitted
  obtain ⟨inside, noRival⟩ := admitted
  rw [registerAt, if_neg (UInt32.not_le.mpr inside)]
  simp only [role, noRival, nodeIds_eq, elsewhere]
  exact (leaderIds_insert _ _ _).append_right _

private theorem nodeIds_registerAt_follower {registry : Registry}
    {request : RegisterNodeRequest} {now : Nat}
    (role : request.role = .follower)
    (admitted : registry.admits request now = true) :
    ∃ present : List String,
      registry.nodeIds.Perm (present ++ registry.elsewhere request) ∧
      (registry.registerAt request now).1.nodeIds.Perm
        ((if request.nodeId ∈ present then present
          else present ++ [request.nodeId]) ++
          registry.elsewhere request) := by
  simp only [admits, role, Bool.and_true, decide_eq_true_eq] at admitted
  refine ⟨(registry.followers[request.shardId]?.getD []).map NodeInfo.nodeId,
    ?_, ?_⟩
  · simp only [nodeIds_eq, elsewhere, role]
    have split := followerIds_split registry.followers request.shardId
    exact (split.append_left _).trans (List.perm_append_comm_assoc ..)
  · rw [registerAt, if_neg (UInt32.not_le.mpr admitted)]
    simp only [role, nodeIds_eq, elsewhere]
    rw [alter_eq_insert _ rfl]
    have entered := followerIds_insert registry.followers request.shardId
      (enterFollower (registry.followers[request.shardId]?.getD [])
        { nodeId := request.nodeId
          address := request.address
          role := .follower
          lastSeen := now })
    rw [map_nodeId_enterFollower] at entered
    exact (entered.append_left _).trans (List.perm_append_comm_assoc ..)

/-- An admitted registration keeps the ids unique exactly when its node is not
listed in another place. -/
theorem nodup_registerAt_iff {registry : Registry}
    {request : RegisterNodeRequest} {now : Nat}
    (unique : registry.nodeIds.Nodup)
    (admitted : registry.admits request now = true) :
    (registry.registerAt request now).1.nodeIds.Nodup ↔
      request.nodeId ∉ registry.elsewhere request := by
  cases role : request.role with
  | unspecified =>
      simp [admits, role] at admitted
  | leader =>
      have remaining : (registry.elsewhere request).Nodup := by
        rw [nodeIds_eq] at unique
        simp only [elsewhere, role]
        have fewer := (leaderIds_erase_subperm registry.leaders
          request.shardId).append
          (List.Subperm.refl (followerIds registry.followers))
        exact nodup_of_subperm fewer unique
      rw [(nodeIds_registerAt_leader role admitted).nodup_iff,
        List.nodup_cons]
      exact and_iff_left remaining
  | follower =>
      obtain ⟨present, before, after⟩ :=
        nodeIds_registerAt_follower role admitted
      rw [before.nodup_iff] at unique
      rw [after.nodup_iff]
      by_cases listed : request.nodeId ∈ present
      · rw [if_pos listed]
        have apart := List.disjoint_of_nodup_append unique listed
        exact iff_of_true unique apart
      · rw [if_neg listed, List.append_assoc, List.singleton_append,
          List.nodup_middle, List.nodup_cons, List.mem_append]
        simp [listed, unique]

private theorem mem_nodeIds_registerAt {registry : Registry}
    {request : RegisterNodeRequest} {now : Nat} {nodeId : String}
    (admitted : registry.admits request now = true)
    (after : nodeId ∈ (registry.registerAt request now).1.nodeIds) :
    nodeId = request.nodeId ∨ nodeId ∈ registry.nodeIds := by
  cases role : request.role with
  | unspecified =>
      simp [admits, role] at admitted
  | leader =>
      rw [(nodeIds_registerAt_leader role admitted).mem_iff,
        List.mem_cons] at after
      apply after.imp_right
      intro other
      rw [nodeIds_eq]
      simp only [elsewhere, role] at other
      exact ((leaderIds_erase_subperm registry.leaders
        request.shardId).append (List.Subperm.refl _)).subset other
  | follower =>
      obtain ⟨present, before, now⟩ :=
        nodeIds_registerAt_follower role admitted
      rw [now.mem_iff] at after
      rw [before.mem_iff]
      by_cases listed : request.nodeId ∈ present
      · rw [if_pos listed] at after
        exact Or.inr after
      · rw [if_neg listed] at after
        simp only [List.mem_append, List.mem_singleton] at after ⊢
        tauto

/-! ## A node with one entry -/

theorem mem_entries {registry : Registry} {shard : UInt32}
    {info : NodeInfo} :
    (shard, info) ∈ registry.entries ↔
      registry.leaders[shard]? = some info ∨
        ∃ nodes, registry.followers[shard]? = some nodes ∧ info ∈ nodes := by
  simp only [entries, List.mem_append, List.mem_flatMap, List.mem_map,
    Prod.mk.injEq, Prod.exists, mem_toList]
  constructor
  · intro membership
    rcases membership with led | ⟨group, nodes, found, node, member, rfl, rfl⟩
    · exact Or.inl led
    · exact Or.inr ⟨nodes, found, member⟩
  · intro membership
    rcases membership with led | ⟨nodes, found, member⟩
    · exact Or.inl led
    · exact Or.inr ⟨shard, nodes, found, info, member, rfl, rfl⟩

private theorem mem_updateFirst {α : Type} (matching : α → Bool)
    (change : α → α)
    {values : List α} {value : α} (member : value ∈ values)
    (matched : matching value = true) :
    ∃ found ∈ values, matching found = true ∧
      change found ∈ updateFirst matching change values := by
  induction values with
  | nil =>
      simp at member
  | cons head tail inductionHypothesis =>
      by_cases here : matching head = true
      · exact ⟨head, List.mem_cons_self, here, by simp [updateFirst, here]⟩
      · have later : value ∈ tail := by
          rcases List.mem_cons.mp member with rfl | later
          · exact absurd matched here
          · exact later
        obtain ⟨found, listed, matches', changed⟩ := inductionHypothesis later
        exact ⟨found, List.mem_cons_of_mem _ listed, matches',
          by simp [updateFirst, here, changed]⟩

/-- A heartbeat of a listed node refreshes an entry of it. -/
theorem exists_refreshed (passes : RegistryPasses) {registry : Registry}
    {nodeId : String} (listed : nodeId ∈ registry.nodeIds) (now : Nat) :
    ∃ entry ∈ (registry.heartbeat passes nodeId now).1.entries,
      entry.2.nodeId = nodeId ∧ entry.2.lastSeen = now := by
  cases led : registry.ledShard passes nodeId with
  | some shard =>
      obtain ⟨info, found, same⟩ := ledShard_spec led
      refine ⟨(shard, { info with lastSeen := now }), ?_, same, rfl⟩
      simp only [heartbeat, led, touchLeader]
      rw [mem_entries]
      apply Or.inl
      rw [getElem?_alter, if_pos rfl, found, Option.map_some]
  | none =>
      cases followed : registry.followedShard passes nodeId with
      | none =>
          rw [nodeIds_eq, List.mem_append] at listed
          rcases listed with leads | follows
          · exact absurd leads (ledShard_eq_none_iff.mp led)
          · exact absurd follows (followedShard_eq_none_iff.mp followed)
      | some shard =>
          obtain ⟨nodes, found, info, member, same⟩ :=
            followedShard_spec followed
          obtain ⟨node, -, matched, changed⟩ := mem_updateFirst
            (fun node => decide (node.nodeId = nodeId))
            (fun node => { node with lastSeen := now })
            member (by simpa using same)
          refine ⟨(shard, { node with lastSeen := now }), ?_,
            of_decide_eq_true matched, rfl⟩
          simp only [heartbeat, led, followed]
          rw [mem_entries]
          apply Or.inr
          refine ⟨_, ?_, changed⟩
          rw [getElem?_alter, if_pos rfl, found, Option.map_some]

theorem nodeIds_snapshot (passes : RegistryPasses) (registry : Registry)
    (now : Nat) :
    ((registry.snapshot passes now).map NodeSnapshot.nodeId).Perm
      registry.nodeIds := by
  have leadersMet :=
    (passes.leaders.perm registry.leaders.toList).map
      (fun entry => entry.2.nodeId)
  have followersMet :=
    (passes.followers.perm registry.followers.toList).flatMap_right
      (fun group => group.2.map NodeInfo.nodeId)
  refine ((sortBy_perm _ _).map NodeSnapshot.nodeId).trans ?_
  rw [nodeIds_eq, List.map_append, List.map_map, List.map_flatMap]
  simp only [List.map_map]
  exact leadersMet.append followersMet

/-- Every node is listed once: among the entries, in every view, and so that a
heartbeat refreshes all there is of the node. -/
structure ListedOnce (registry : Registry) : Prop where
  unique : registry.nodeIds.Nodup
  viewed : ∀ passes now,
    ((registry.snapshot passes now).map NodeSnapshot.nodeId).Nodup
  grouped : ∀ passes shard now,
    ((registry.membersOf passes shard now).map NodeSnapshot.nodeId).Nodup
  refreshed : ∀ passes nodeId now,
    ∀ entry ∈ (registry.heartbeat passes nodeId now).1.entries,
      entry.2.nodeId = nodeId → entry.2.lastSeen = now

theorem listedOnce_iff (registry : Registry) :
    registry.ListedOnce ↔ registry.nodeIds.Nodup := by
  constructor
  · exact ListedOnce.unique
  · intro unique
    have viewed : ∀ passes now,
        ((registry.snapshot passes now).map NodeSnapshot.nodeId).Nodup := by
      intro passes now
      exact (nodeIds_snapshot passes registry now).nodup_iff.mpr unique
    refine ⟨unique, viewed, ?_, ?_⟩
    · intro passes shard now
      exact (viewed passes now).sublist (List.filter_sublist.map _)
    · intro passes nodeId now entry member same
      have kept := nodeIds_heartbeat passes registry nodeId now
      have listed : nodeId ∈ registry.nodeIds := by
        rw [← kept.mem_iff]
        exact List.mem_map.mpr ⟨entry, member, same⟩
      obtain ⟨fresh, present, sameFresh, seen⟩ :=
        exists_refreshed passes listed now
      have one := List.inj_on_of_nodup_map (kept.nodup_iff.mpr unique)
        member present (same.trans sameFresh.symm)
      rw [one]
      exact seen

end Registry

/-! ## Runs -/

/-- One call on the registry, with its time and the orders of its passes. -/
inductive RegistryOp where
  | registerAt (request : RegisterNodeRequest) (now : Nat)
  | heartbeat (passes : RegistryPasses) (nodeId : String) (now : Nat)
  | reportRaftLeader (passes : RegistryPasses) (nodeId : String) (now : Nat)
  | reapDead (passes : RegistryPasses) (now timeout : Nat)
  | promoteOrphanedShards (passes : RegistryPasses)
  | markDraining (nodeId : String)

namespace RegistryOp

def step (registry : Registry) : RegistryOp → Registry
  | registerAt request now => (registry.registerAt request now).1
  | heartbeat passes nodeId now => (registry.heartbeat passes nodeId now).1
  | reportRaftLeader passes nodeId now =>
      (registry.reportRaftLeader passes nodeId now).1
  | reapDead passes now timeout => (registry.reapDead passes now timeout).1
  | promoteOrphanedShards passes => (registry.promoteOrphanedShards passes).1
  | markDraining nodeId => (registry.markDraining nodeId).1

/-- The node of an admitted registration is not listed outside the place it
registers for. -/
def RegistersInPlace (registry : Registry) : RegistryOp → Prop
  | registerAt request now =>
      registry.admits request now = true →
        request.nodeId ∉ registry.elsewhere request
  | _ => True

private theorem nodeIds_markDraining (registry : Registry) (nodeId : String) :
    (registry.markDraining nodeId).1.nodeIds = registry.nodeIds := by
  by_cases known : registry.knowsNode nodeId = true
  · simp [Registry.markDraining, known, Registry.nodeIds, Registry.entries]
  · simp [Registry.markDraining, known]

theorem nodup_step_iff {registry : Registry}
    (unique : registry.nodeIds.Nodup) (next : RegistryOp) :
    (step registry next).nodeIds.Nodup ↔ RegistersInPlace registry next := by
  cases next with
  | registerAt request now =>
      by_cases admitted : registry.admits request now = true
      · simp only [step, RegistersInPlace, admitted, forall_true_left]
        exact Registry.nodup_registerAt_iff unique admitted
      · have refused := Bool.eq_false_of_not_eq_true admitted
        simp only [step, RegistersInPlace,
          Registry.registerAt_of_not_admits refused]
        exact iff_of_true unique (fun accepted => absurd accepted admitted)
  | heartbeat passes nodeId now =>
      have kept := Registry.nodeIds_heartbeat passes registry nodeId now
      exact iff_of_true (kept.nodup_iff.mpr unique) trivial
  | reportRaftLeader passes nodeId now =>
      have kept :=
        Registry.nodeIds_reportRaftLeader passes registry nodeId now
      exact iff_of_true (kept.nodup_iff.mpr unique) trivial
  | reapDead passes now timeout =>
      have fewer :=
        Registry.nodeIds_reapDead_subperm passes registry now timeout
      exact iff_of_true (nodup_of_subperm fewer unique) trivial
  | promoteOrphanedShards passes =>
      have kept := Registry.nodeIds_promoteOrphanedShards passes registry
      exact iff_of_true (kept.nodup_iff.mpr unique) trivial
  | markDraining nodeId =>
      have kept := nodeIds_markDraining registry nodeId
      refine iff_of_true ?_ trivial
      rw [step, kept]
      exact unique

/-- A step lists no node but the one it registers. -/
theorem mem_nodeIds_step {registry : Registry} {next : RegistryOp}
    {nodeId : String} (after : nodeId ∈ (step registry next).nodeIds) :
    nodeId ∈ registry.nodeIds ∨
      ∃ request now, next = registerAt request now ∧
        nodeId = request.nodeId := by
  cases next with
  | registerAt request now =>
      by_cases admitted : registry.admits request now = true
      · rcases Registry.mem_nodeIds_registerAt admitted after with
          same | before
        · exact Or.inr ⟨request, now, rfl, same⟩
        · exact Or.inl before
      · rw [step, Registry.registerAt_of_not_admits
          (Bool.eq_false_of_not_eq_true admitted)] at after
        exact Or.inl after
  | heartbeat passes other now =>
      exact Or.inl ((Registry.nodeIds_heartbeat passes registry other
        now).mem_iff.mp after)
  | reportRaftLeader passes other now =>
      exact Or.inl ((Registry.nodeIds_reportRaftLeader passes registry other
        now).mem_iff.mp after)
  | reapDead passes now timeout =>
      exact Or.inl ((Registry.nodeIds_reapDead_subperm passes registry now
        timeout).subset after)
  | promoteOrphanedShards passes =>
      exact Or.inl ((Registry.nodeIds_promoteOrphanedShards passes
        registry).mem_iff.mp after)
  | markDraining other =>
      rw [step, nodeIds_markDraining] at after
      exact Or.inl after

/-- A registry without nodes, however it is set up. -/
def unpopulated (shardCount : UInt32) (livenessTimeout : Nat)
    (vshards : List UInt32) (replicated : Bool) : Registry :=
  { Registry.new shardCount with
    livenessTimeout := livenessTimeout
    vshards := vshards
    authorityReplicated := replicated }

/-- Every node is listed once throughout a run exactly when no admitted
registration of the run finds its node listed in another place. -/
theorem listedOnce_throughout_iff (shardCount : UInt32)
    (livenessTimeout : Nat) (vshards : List UInt32) (replicated : Bool)
    (run : List RegistryOp) :
    Throughout step Registry.ListedOnce
        (unpopulated shardCount livenessTimeout vshards replicated) run ↔
      EachStep step RegistersInPlace
        (unpopulated shardCount livenessTimeout vshards replicated) run := by
  apply throughout_iff_eachStep
  · intro current next once
    rw [Registry.listedOnce_iff] at once ⊢
    exact nodup_step_iff once next
  · rw [Registry.listedOnce_iff]
    exact List.nodup_nil

/-- A member registers as a follower, leads its group, restarts and registers
as a follower again. -/
def restartOfLeader : List RegistryOp :=
  let passes : RegistryPasses := ⟨.asStored, .asStored⟩
  let request : RegisterNodeRequest :=
    { nodeId := "n1", address := "http://n1", shardId := 0,
      role := .follower }
  [registerAt request 0, reportRaftLeader passes "n1" 1,
    registerAt request 2]

/-- The restarted member is listed as the leader and as a follower. -/
theorem restartOfLeader_listed_twice :
    (final step (unpopulated 1 15000 [] false) restartOfLeader).nodeIds =
        ["n1", "n1"] ∧
      ¬ Throughout step Registry.ListedOnce (unpopulated 1 15000 [] false)
        restartOfLeader := by
  have twice :
      (final step (unpopulated 1 15000 [] false) restartOfLeader).nodeIds =
        ["n1", "n1"] := by
    decide +kernel
  refine ⟨twice, ?_⟩
  intro always
  have once := (final_of_throughout always).unique
  rw [twice] at once
  exact absurd once (by decide)

end RegistryOp

end AetherEngine.Coordinator
