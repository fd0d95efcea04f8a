import AetherEngine.Coordinator.RegistryNodes

/-!
# The shard map, one shard at a time

What the registry holds of one shard is a cell: the leader and the list of
followers.  Every operation changes the cells one by one, so each is described
once by what it does to a cell, and statements about the whole map follow from
statements about its cells.
-/

namespace AetherEngine.Coordinator

open AetherEngine.Ranking
open AetherEngine.Runs
open AetherEngine.Tables

/-- What the registry holds of one shard. -/
structure ShardCell where
  leader : Option NodeInfo
  followers : Option (List NodeInfo)
deriving DecidableEq

namespace ShardCell

/-- The nodes of the shard, the leader first. -/
def nodes (cell : ShardCell) : List NodeInfo :=
  cell.leader.toList ++ cell.followers.getD []

/-- Only the nodes heard of within the timeout stay. -/
def reap (now timeout : Nat) (cell : ShardCell) : ShardCell where
  leader := cell.leader.filter fun node => !Registry.isDead now timeout node
  followers := cell.followers.map
    (List.filter fun node => !Registry.isDead now timeout node)

/-- The follower that would take the place of a missing leader. -/
def candidate (cell : ShardCell) : Option NodeInfo :=
  if cell.leader.isNone then (cell.followers.getD []).getLast? else none

/-- The last follower takes the place of a missing leader. -/
def promote (cell : ShardCell) : ShardCell :=
  match cell.candidate with
  | none => cell
  | some node =>
      { leader := some { node with role := .leader }
        followers :=
          if (cell.followers.getD []).dropLast.isEmpty then
            none
          else
            some (cell.followers.getD []).dropLast }

/-- A follower takes the lead, and the old leader follows. -/
def install (promoted : NodeInfo) (now : Nat) (cell : ShardCell) :
    ShardCell where
  leader := some { promoted with role := .leader, lastSeen := now }
  followers := some
    ((cell.followers.getD []).eraseP
        (fun node => node.nodeId = promoted.nodeId) ++
      (cell.leader.map fun old => { old with role := .follower }).toList)

/-- The leader is heard of. -/
def touch (now : Nat) (cell : ShardCell) : ShardCell :=
  { cell with
    leader := cell.leader.map fun info => { info with lastSeen := now } }

/-- A node is registered as the leader. -/
def lead (info : NodeInfo) (cell : ShardCell) : ShardCell :=
  { cell with leader := some info }

/-- A node is registered as a follower. -/
def enter (info : NodeInfo) (cell : ShardCell) : ShardCell :=
  { cell with
    followers := some
      (Registry.enterFollower (cell.followers.getD []) info) }

/-- A follower is heard of. -/
def hear (nodeId : String) (now : Nat) (cell : ShardCell) : ShardCell :=
  { cell with
    followers := cell.followers.map
      (updateFirst (fun node => node.nodeId = nodeId)
        fun node => { node with lastSeen := now }) }

theorem nodes_reap (cell : ShardCell) (now timeout : Nat) :
    (cell.reap now timeout).nodes =
      cell.nodes.filter (fun node => !Registry.isDead now timeout node) := by
  rw [nodes, nodes, List.filter_append]
  congr 1
  · cases leads : cell.leader with
    | none => simp [reap, leads]
    | some info =>
        cases dead : Registry.isDead now timeout info with
        | true => simp [reap, leads, dead, Option.filter_some]
        | false => simp [reap, leads, dead, Option.filter_some]
  · cases follows : cell.followers with
    | none => simp [reap, follows]
    | some infos => simp [reap, follows]

private theorem candidate_promote (cell : ShardCell) :
    cell.promote.candidate = none := by
  rw [promote]
  cases chosen : cell.candidate with
  | none => exact chosen
  | some node => simp [candidate]

private theorem promote_promote (cell : ShardCell) :
    cell.promote.promote = cell.promote := by
  rw [promote.eq_def cell.promote, candidate_promote]

private theorem promote_of_no_followers {cell : ShardCell}
    (alone : cell.followers = none) : cell.promote = cell := by
  have nobody : cell.candidate = none := by
    simp [candidate, alone]
  rw [promote, nobody]

end ShardCell

namespace Registry

def cellAt (registry : Registry) (shard : UInt32) : ShardCell where
  leader := registry.leaders[shard]?
  followers := registry.followers[shard]?

/-! ## Entries by shard -/

/-- The entries of one shard are the nodes of its cell. -/
theorem entries_filter_shard (registry : Registry) (shard : UInt32) :
    registry.entries.filter (fun entry => entry.1 = shard) =
      (registry.cellAt shard).nodes.map (fun info => (shard, info)) := by
  rw [entries, List.filter_append, filter_toList_key, filter_spread,
    filter_toList_key, ShardCell.nodes, List.map_append]
  congr 1
  cases found : registry.followers[shard]? with
  | none => simp [cellAt, found]
  | some nodes => simp [cellAt, found]

theorem mem_entries_iff_mem_nodes {registry : Registry} {shard : UInt32}
    {info : NodeInfo} :
    (shard, info) ∈ registry.entries ↔
      info ∈ (registry.cellAt shard).nodes := by
  have listed : (shard, info) ∈ registry.entries ↔
      (shard, info) ∈ registry.entries.filter
        (fun entry => entry.1 = shard) := by
    simp
  rw [listed, entries_filter_shard]
  simp

/-- What is seen of the entries is the same, up to order, when it is the same
in every shard. -/
theorem entries_view_perm {β : Type} (view : NodeInfo → β)
    (keep : NodeInfo → Bool) (registry after : Registry)
    (same : ∀ shard, ((after.cellAt shard).nodes.map view).Perm
      (((registry.cellAt shard).nodes.filter keep).map view)) :
    (after.entries.map (fun entry => (entry.1, view entry.2))).Perm
      ((registry.entries.filter (fun entry => keep entry.2)).map
        (fun entry => (entry.1, view entry.2))) := by
  apply perm_of_filter_key
  intro shard
  have afterAt :
      (after.entries.map (fun entry => (entry.1, view entry.2))).filter
          (fun entry => entry.1 = shard) =
        ((after.cellAt shard).nodes.map view).map
          (fun value => (shard, value)) := by
    rw [List.filter_map]
    simp only [Function.comp_def]
    rw [entries_filter_shard, List.map_map, List.map_map]
    rfl
  have beforeAt :
      ((registry.entries.filter (fun entry => keep entry.2)).map
          (fun entry => (entry.1, view entry.2))).filter
          (fun entry => entry.1 = shard) =
        (((registry.cellAt shard).nodes.filter keep).map view).map
          (fun value => (shard, value)) := by
    rw [List.filter_map]
    simp only [Function.comp_def]
    rw [List.filter_comm, entries_filter_shard, List.filter_map, List.map_map,
      List.map_map]
    rfl
  rw [afterAt, beforeAt]
  exact (same shard).map _

/-! ## What the operations do to a cell -/

theorem cellAt_reapDead (passes : RegistryPasses) (registry : Registry)
    (now timeout : Nat) (shard : UInt32) :
    (registry.reapDead passes now timeout).1.cellAt shard =
      (registry.cellAt shard).reap now timeout := by
  have led :
      (registry.reapDead passes now timeout).1.leaders[shard]? =
        registry.leaders[shard]?.filter
          (fun node => !isDead now timeout node) := by
    have swept :
        (∃ entry ∈ (passes.leaders.arrange registry.leaders.toList).filter
            (fun entry => isDead now timeout entry.2), entry.1 = shard) ↔
          ∃ other, registry.leaders[shard]? = some other ∧
            isDead now timeout other = true := by
      simp only [List.mem_filter, Ranking.IterationOrder.mem_arrange,
        Prod.exists, mem_toList]
      constructor
      · intro finding
        rcases finding with ⟨key, other, ⟨found, dead⟩, rfl⟩
        exact ⟨other, found, dead⟩
      · intro finding
        rcases finding with ⟨other, found, dead⟩
        exact ⟨shard, other, ⟨found, dead⟩, rfl⟩
    simp only [reapDead]
    rw [getElem?_foldl_erase Prod.fst]
    simp only [swept]
    cases found : registry.leaders[shard]? with
    | none =>
        simp
    | some info =>
        cases dead : isDead now timeout info with
        | true => simp [Option.filter_some, dead]
        | false => simp [Option.filter_some, dead]
  rw [cellAt, led]
  simp only [reapDead, Std.ExtTreeMap.getElem?_map]
  rfl

/-- What a reap returns are the dead entries, each as often as it is listed. -/
theorem reaped_perm (passes : RegistryPasses) (registry : Registry)
    (now timeout : Nat) :
    (registry.reapDead passes now timeout).2.Perm
      ((registry.entries.filter
        (fun entry => isDead now timeout entry.2)).map Prod.snd) := by
  have leadersMet :=
    ((passes.leaders.perm registry.leaders.toList).filter
      (fun entry => isDead now timeout entry.2)).map Prod.snd
  have followersMet :=
    (passes.followers.perm registry.followers.toList).flatMap_right
      (fun group => group.2.filter (isDead now timeout))
  have spread : ((registry.followers.toList.flatMap
      (fun group => group.2.map (fun info => (group.1, info)))).filter
        (fun entry => isDead now timeout entry.2)).map Prod.snd =
      registry.followers.toList.flatMap
        (fun group => group.2.filter (isDead now timeout)) := by
    rw [List.filter_flatMap, List.map_flatMap]
    simp only [List.filter_map, List.map_map, Function.comp_def, List.map_id']
  rw [entries, List.filter_append, List.map_append, spread]
  exact leadersMet.append followersMet

/-- Promotion in one shard, by its candidate. -/
theorem promoteShard_eq (registry : Registry) (shard : UInt32) :
    registry.promoteShard shard =
      match (registry.cellAt shard).candidate with
      | none => (registry, none)
      | some node =>
          ({ registry with
              leaders := registry.leaders.insert shard
                { node with role := .leader }
              followers :=
                if (registry.followers[shard]?.getD []).dropLast.isEmpty then
                  registry.followers.erase shard
                else
                  registry.followers.insert shard
                    (registry.followers[shard]?.getD []).dropLast },
            some (shard, node.nodeId)) := by
  by_cases led : shard ∈ registry.leaders
  · have leads : (registry.cellAt shard).leader.isNone = false := by
      rw [Option.isNone_eq_false_iff]
      exact Std.ExtTreeMap.mem_iff_isSome_getElem?.mp led
    rw [promoteShard, if_pos led]
    simp [ShardCell.candidate, leads]
  · have noLeader : (registry.cellAt shard).leader.isNone = true := by
      rw [Option.isNone_iff_eq_none]
      exact Std.ExtTreeMap.getElem?_eq_none led
    rw [promoteShard, if_neg led, ShardCell.candidate, if_pos noLeader]
    rfl

private theorem cellAt_promoteShard (registry : Registry)
    (shard other : UInt32) :
    (registry.promoteShard shard).1.cellAt other =
      if other = shard then (registry.cellAt shard).promote
      else registry.cellAt other := by
  rw [promoteShard_eq, ShardCell.promote]
  cases chosen : (registry.cellAt shard).candidate with
  | none =>
      by_cases same : other = shard
      · rw [if_pos same, same]
      · rw [if_neg same]
  | some node =>
      simp only [cellAt, getElem?_insert]
      by_cases same : other = shard
      · subst same
        rw [if_pos rfl, if_pos rfl]
        by_cases single :
            (registry.followers[other]?.getD []).dropLast.isEmpty = true
        · simp [single]
        · simp [single]
      · rw [if_neg same, if_neg (Ne.symm same)]
        split
        · rw [getElem?_erase, if_neg (Ne.symm same)]
        · rw [getElem?_insert, if_neg (Ne.symm same)]

/-- A pass over some shards promotes in each of them, and only once. -/
theorem cellAt_foldl_promoteShard (shards : List UInt32) (registry : Registry)
    (promotions : List (UInt32 × String)) (other : UInt32) :
    (shards.foldl
        (fun (registry, promotions) shard =>
          let (registry, promotion) := registry.promoteShard shard
          (registry, promotions ++ promotion.toList))
        (registry, promotions)).1.cellAt other =
      if other ∈ shards then (registry.cellAt other).promote
      else registry.cellAt other := by
  induction shards generalizing registry promotions with
  | nil =>
      simp
  | cons shard rest inductionHypothesis =>
      rw [List.foldl_cons, inductionHypothesis, cellAt_promoteShard]
      by_cases same : other = shard
      · subst same
        by_cases later : other ∈ rest
        · simp [later, ShardCell.promote_promote]
        · simp [later]
      · simp [same]

theorem cellAt_promoteOrphanedShards (passes : RegistryPasses)
    (registry : Registry) (shard : UInt32) :
    (registry.promoteOrphanedShards passes).1.cellAt shard =
      (registry.cellAt shard).promote := by
  rw [promoteOrphanedShards, cellAt_foldl_promoteShard]
  by_cases followed :
      shard ∈ (passes.followers.arrange registry.followers.toList).map Prod.fst
  · rw [if_pos followed]
  · have noFollowers : registry.followers[shard]? = none := by
      by_contra present
      obtain ⟨nodes, found⟩ := Option.ne_none_iff_exists'.mp present
      apply followed
      rw [List.mem_map]
      refine ⟨(shard, nodes), ?_, rfl⟩
      rw [IterationOrder.mem_arrange, mem_toList]
      exact found
    rw [if_neg followed, ShardCell.promote_of_no_followers]
    exact noFollowers

/-- A promotion reported by a pass is of the candidate of its shard. -/
theorem candidate_of_mem_foldl_promoteShard (shards : List UInt32)
    (registry : Registry) (promotions : List (UInt32 × String))
    {shard : UInt32} {nodeId : String}
    (reported : (shard, nodeId) ∈ (shards.foldl
        (fun (registry, promotions) shard =>
          let (registry, promotion) := registry.promoteShard shard
          (registry, promotions ++ promotion.toList))
        (registry, promotions)).2) :
    (shard, nodeId) ∈ promotions ∨
      ∃ node, (registry.cellAt shard).candidate = some node ∧
        node.nodeId = nodeId := by
  induction shards generalizing registry promotions with
  | nil =>
      exact Or.inl reported
  | cons current rest inductionHypothesis =>
      rw [List.foldl_cons] at reported
      rcases inductionHypothesis (registry.promoteShard current).1
          (promotions ++ (registry.promoteShard current).2.toList)
          reported with before | later
      · rw [List.mem_append] at before
        apply before.imp_right
        intro promoted
        rw [promoteShard_eq] at promoted
        cases chosen : (registry.cellAt current).candidate with
        | none =>
            simp [chosen] at promoted
        | some node =>
            simp only [chosen, Option.toList_some, List.mem_singleton,
              Prod.mk.injEq] at promoted
            obtain ⟨rfl, rfl⟩ := promoted
            exact ⟨node, chosen, rfl⟩
      · apply Or.inr
        obtain ⟨node, chosen, same⟩ := later
        rw [cellAt_promoteShard] at chosen
        by_cases again : shard = current
        · rw [if_pos again, ShardCell.candidate_promote] at chosen
          contradiction
        · rw [if_neg again] at chosen
          exact ⟨node, chosen, same⟩

theorem candidate_of_promoted {passes : RegistryPasses} (registry : Registry)
    {shard : UInt32} {nodeId : String}
    (reported : (shard, nodeId) ∈ (registry.promoteOrphanedShards passes).2) :
    ∃ node, (registry.cellAt shard).candidate = some node ∧
      node.nodeId = nodeId := by
  rcases candidate_of_mem_foldl_promoteShard _ _ _ reported with
    earlier | promoted
  · simp at earlier
  · exact promoted

/-- What a heartbeat does to a cell. -/
theorem cellAt_heartbeat (passes : RegistryPasses) (registry : Registry)
    (nodeId : String) (now : Nat) (other : UInt32) :
    (registry.heartbeat passes nodeId now).1.cellAt other =
      if registry.ledShard passes nodeId = some other then
        (registry.cellAt other).touch now
      else if registry.ledShard passes nodeId = none ∧
          registry.followedShard passes nodeId = some other then
        (registry.cellAt other).hear nodeId now
      else
        registry.cellAt other := by
  cases led : registry.ledShard passes nodeId with
  | some shard =>
      simp only [heartbeat, led, touchLeader, cellAt, getElem?_alter,
        Option.some.injEq, reduceCtorEq, false_and, if_false]
      by_cases same : shard = other
      · rw [if_pos same, if_pos same, same]
        rfl
      · rw [if_neg same, if_neg same]
  | none =>
      cases followed : registry.followedShard passes nodeId with
      | none =>
          simp [heartbeat, led, followed]
      | some shard =>
          simp only [heartbeat, led, followed, cellAt, getElem?_alter,
            Option.some.injEq, reduceCtorEq, true_and, if_false]
          by_cases same : shard = other
          · rw [if_pos same, if_pos same, same]
            rfl
          · rw [if_neg same, if_neg same]

theorem cellAt_touchLeader (registry : Registry) (shard : UInt32) (now : Nat)
    (other : UInt32) :
    (registry.touchLeader shard now).cellAt other =
      if other = shard then (registry.cellAt shard).touch now
      else registry.cellAt other := by
  simp only [touchLeader, cellAt, getElem?_alter]
  by_cases same : other = shard
  · subst same
    rw [if_pos rfl, if_pos rfl]
    rfl
  · rw [if_neg same, if_neg (Ne.symm same)]

theorem cellAt_installLeader (registry : Registry) (shard : UInt32)
    (promoted : NodeInfo) (now : Nat) (other : UInt32) :
    (registry.installLeader shard (registry.followers[shard]?.getD [])
        promoted now).cellAt other =
      if other = shard then (registry.cellAt shard).install promoted now
      else registry.cellAt other := by
  simp only [installLeader, cellAt, getElem?_insert]
  by_cases same : other = shard
  · subst same
    rw [if_pos rfl, if_pos rfl, if_pos rfl]
    cases led : registry.leaders[other]? with
    | none => simp [ShardCell.install]
    | some old => simp [ShardCell.install]
  · rw [if_neg same, if_neg (Ne.symm same), if_neg (Ne.symm same)]

/-- A report refreshes the leader of a shard, makes a follower of a shard its
leader, or finds no entry of its node. -/
theorem reportRaftLeader_cases (passes : RegistryPasses) (registry : Registry)
    (nodeId : String) (now : Nat) :
    (∃ shard, registry.ledShard passes nodeId = some shard ∧
        (registry.reportRaftLeader passes nodeId now).1 =
          registry.touchLeader shard now) ∨
      (registry.ledShard passes nodeId = none ∧
        registry.followedShard passes nodeId = none ∧
        (registry.reportRaftLeader passes nodeId now).1 = registry) ∨
      ∃ shard promoted, registry.ledShard passes nodeId = none ∧
        registry.followedShard passes nodeId = some shard ∧
        (registry.followers[shard]?.getD []).find?
          (fun node => node.nodeId = nodeId) = some promoted ∧
        (registry.reportRaftLeader passes nodeId now).1 =
          registry.installLeader shard (registry.followers[shard]?.getD [])
            promoted now := by
  cases led : registry.ledShard passes nodeId with
  | some shard =>
      exact Or.inl ⟨shard, rfl, by simp only [reportRaftLeader, led]⟩
  | none =>
      cases followed : registry.followedShard passes nodeId with
      | none =>
          exact Or.inr (Or.inl ⟨rfl, rfl, by
            simp only [reportRaftLeader, led, followed]⟩)
      | some shard =>
          obtain ⟨nodes, found, info, member, same⟩ :=
            followedShard_spec followed
          have listed : (nodes.find?
              (fun node => node.nodeId = nodeId)).isSome = true := by
            rw [List.find?_isSome]
            exact ⟨info, member, by simpa using same⟩
          obtain ⟨promoted, first⟩ := Option.isSome_iff_exists.mp listed
          refine Or.inr (Or.inr ⟨shard, promoted, rfl, rfl, ?_, ?_⟩)
          · rw [found, Option.getD_some]
            exact first
          · simp only [reportRaftLeader, led, followed, found,
              Option.getD_some, first]

/-! ## Registrations -/

/-- The entry a request asks for. -/
def entryOf (request : RegisterNodeRequest) (now : Nat) : NodeInfo where
  nodeId := request.nodeId
  address := request.address
  role := request.role
  lastSeen := now

/-- A registration is refused and changes nothing, or it enters the node in the
place it asks for. -/
theorem registerAt_cases (registry : Registry) (request : RegisterNodeRequest)
    (now : Nat) :
    (registry.admits request now = false ∧
        (registry.registerAt request now).2.accepted = false ∧
        (registry.registerAt request now).1 = registry) ∨
      (registry.admits request now = true ∧
        (registry.registerAt request now).2.accepted = true ∧
        request.role = .leader ∧
        (registry.registerAt request now).1 =
          { registry with
            leaders := registry.leaders.insert request.shardId
              (entryOf request now) }) ∨
      (registry.admits request now = true ∧
        (registry.registerAt request now).2.accepted = true ∧
        request.role = .follower ∧
        (registry.registerAt request now).1 =
          { registry with
            followers := registry.followers.alter request.shardId
              (fun nodes => some
                (enterFollower (nodes.getD []) (entryOf request now))) }) := by
  by_cases outside : registry.shardCount ≤ request.shardId
  · have refused : registry.admits request now = false := by
      simp [admits, UInt32.not_lt.mpr outside]
    refine Or.inl ⟨refused, ?_, registerAt_of_not_admits refused⟩
    rw [registerAt, if_pos outside]
    rfl
  · have inside := UInt32.not_le.mp outside
    cases role : request.role with
    | unspecified =>
        have refused : registry.admits request now = false := by
          simp [admits, role]
        refine Or.inl ⟨refused, ?_, registerAt_of_not_admits refused⟩
        rw [registerAt, if_neg outside]
        simp only [role]
        rfl
    | follower =>
        refine Or.inr (Or.inr ⟨by simp [admits, inside, role], ?_⟩)
        rw [registerAt, if_neg outside]
        simp only [role, entryOf]
        exact ⟨rfl, trivial, trivial⟩
    | leader =>
        cases rival : registry.liveRival request now with
        | none =>
            refine Or.inr (Or.inl ⟨by simp [admits, inside, role, rival], ?_⟩)
            rw [registerAt, if_neg outside]
            simp only [role, rival, entryOf]
            exact ⟨rfl, trivial, trivial⟩
        | some current =>
            have refused : registry.admits request now = false := by
              simp [admits, role, rival]
            refine Or.inl ⟨refused, ?_, registerAt_of_not_admits refused⟩
            rw [registerAt, if_neg outside]
            simp only [role, rival]
            rfl

theorem cellAt_registerAt_leader {registry : Registry}
    {request : RegisterNodeRequest} {now : Nat}
    (admitted : registry.admits request now = true)
    (role : request.role = .leader) (other : UInt32) :
    (registry.registerAt request now).1.cellAt other =
      if other = request.shardId then
        (registry.cellAt request.shardId).lead (entryOf request now)
      else
        registry.cellAt other := by
  rcases registry.registerAt_cases request now with
    ⟨refused, -⟩ | ⟨-, -, -, after⟩ | ⟨-, -, follows, -⟩
  · rw [admitted] at refused
    contradiction
  · rw [after]
    simp only [cellAt, ShardCell.lead, getElem?_insert]
    by_cases same : other = request.shardId
    · subst same
      rw [if_pos rfl, if_pos rfl]
    · rw [if_neg same, if_neg (Ne.symm same)]
  · rw [role] at follows
    contradiction

theorem cellAt_registerAt_follower {registry : Registry}
    {request : RegisterNodeRequest} {now : Nat}
    (admitted : registry.admits request now = true)
    (role : request.role = .follower) (other : UInt32) :
    (registry.registerAt request now).1.cellAt other =
      if other = request.shardId then
        (registry.cellAt request.shardId).enter (entryOf request now)
      else
        registry.cellAt other := by
  rcases registry.registerAt_cases request now with
    ⟨refused, -⟩ | ⟨-, -, leads, -⟩ | ⟨-, -, -, after⟩
  · rw [admitted] at refused
    contradiction
  · rw [role] at leads
    contradiction
  · rw [after]
    simp only [cellAt, ShardCell.enter, getElem?_alter]
    by_cases same : other = request.shardId
    · subst same
      rw [if_pos rfl, if_pos rfl]
    · rw [if_neg same, if_neg (Ne.symm same)]

/-- Entering a follower puts it at the end of the list or in the place of the
first entry under its id. -/
theorem enterFollower_split (nodes : List NodeInfo) (info : NodeInfo) :
    ∃ front back, enterFollower nodes info = front ++ info :: back ∧
      (∀ node ∈ front, node.nodeId ≠ info.nodeId) ∧
      ((nodes = front ∧ back = []) ∨
        ∃ old, nodes = front ++ old :: back ∧ old.nodeId = info.nodeId) := by
  induction nodes with
  | nil =>
      exact ⟨[], [], rfl, by simp, Or.inl ⟨rfl, rfl⟩⟩
  | cons node rest inductionHypothesis =>
      by_cases same : node.nodeId = info.nodeId
      · refine ⟨[], rest, ?_, by simp, Or.inr ⟨node, rfl, same⟩⟩
        simp [enterFollower, updateFirst, same]
      · obtain ⟨front, back, entered, others, before⟩ := inductionHypothesis
        have later : enterFollower (node :: rest) info =
            node :: enterFollower rest info := by
          by_cases present :
              rest.any (fun node => node.nodeId = info.nodeId) = true
          · simp [enterFollower, updateFirst, same, present]
          · simp [enterFollower, same, present]
        refine ⟨node :: front, back, ?_, ?_, ?_⟩
        · rw [later, entered, List.cons_append]
        · intro other member
          rcases List.mem_cons.mp member with rfl | member
          · exact same
          · exact others other member
        · rcases before with ⟨rfl, rfl⟩ | ⟨old, rfl, found⟩
          · exact Or.inl ⟨rfl, rfl⟩
          · exact Or.inr ⟨old, rfl, found⟩

/-- A registration that is refused changes nothing, one that is accepted changes
the place it asks for, and no leader heard of within the timeout is replaced by
another node. -/
structure RegistersWhole (registry : Registry)
    (request : RegisterNodeRequest) (now : Nat)
    (after : Registry) (accepted : Bool) : Prop where
  refused : accepted = false → after = registry
  outside : registry.shardCount ≤ request.shardId → accepted = false
  unspecified : request.role = .unspecified → accepted = false
  live : ∀ current, request.role = .leader →
    registry.leaders[request.shardId]? = some current →
    current.nodeId ≠ request.nodeId →
    now - current.lastSeen ≤ registry.livenessTimeout →
    accepted = false
  /-- A leader replaced by another node is one the reaper would remove. -/
  deposed : ∀ current, accepted = true → request.role = .leader →
    registry.leaders[request.shardId]? = some current →
    current.nodeId ≠ request.nodeId →
    isDead now registry.livenessTimeout current = true
  leads : accepted = true → request.role = .leader →
    after = { registry with leaders := after.leaders } ∧
      after.leaders[request.shardId]? = some (entryOf request now) ∧
      ∀ other, other ≠ request.shardId →
        after.leaders[other]? = registry.leaders[other]?
  follows : accepted = true → request.role = .follower →
    after = { registry with followers := after.followers } ∧
      (∀ other, other ≠ request.shardId →
        after.followers[other]? = registry.followers[other]?) ∧
      ∃ front back,
        after.followers[request.shardId]? =
            some (front ++ entryOf request now :: back) ∧
          (∀ node ∈ front, node.nodeId ≠ request.nodeId) ∧
          ((registry.followers[request.shardId]?.getD [] = front ∧
              back = []) ∨
            ∃ old,
              registry.followers[request.shardId]?.getD [] =
                  front ++ old :: back ∧
                old.nodeId = request.nodeId)

private theorem accepted_eq_admits (registry : Registry)
    (request : RegisterNodeRequest) (now : Nat) :
    (registry.registerAt request now).2.accepted =
      registry.admits request now := by
  rcases registry.registerAt_cases request now with
    ⟨refused, answer, -⟩ | ⟨admitted, answer, -⟩ | ⟨admitted, answer, -⟩
  · rw [refused, answer]
  · rw [admitted, answer]
  · rw [admitted, answer]

/-- A leader is a live rival exactly when the reaper would keep it and it is
another node. -/
theorem liveRival_eq_some_iff {registry : Registry}
    {request : RegisterNodeRequest} {now : Nat} {current : NodeInfo}
    (leads : registry.leaders[request.shardId]? = some current) :
    registry.liveRival request now = some current ↔
      isDead now registry.livenessTimeout current = false ∧
        current.nodeId ≠ request.nodeId := by
  simp [liveRival, leads, isDead]

/-- An admitted request is for a shard of the cluster and under a role, and a
leader it replaces is dead or the node itself. -/
theorem admits_spec {registry : Registry} {request : RegisterNodeRequest}
    {now : Nat} (admitted : registry.admits request now = true) :
    request.shardId < registry.shardCount ∧
      request.role ≠ .unspecified ∧
      ∀ current, request.role = .leader →
        registry.leaders[request.shardId]? = some current →
        current.nodeId ≠ request.nodeId →
        isDead now registry.livenessTimeout current = true := by
  rw [admits, Bool.and_eq_true, decide_eq_true_eq] at admitted
  obtain ⟨inside, open'⟩ := admitted
  refine ⟨inside, ?_, ?_⟩
  · intro role
    simp [role] at open'
  · intro current role leads different
    simp only [role, Option.isNone_iff_eq_none] at open'
    by_contra alive
    have rival := (liveRival_eq_some_iff leads).mpr
      ⟨Bool.eq_false_of_not_eq_true alive, different⟩
    rw [open'] at rival
    contradiction

theorem registerAt_all_or_nothing (registry : Registry)
    (request : RegisterNodeRequest) (now : Nat) :
    registry.RegistersWhole request now
      (registry.registerAt request now).1
      (registry.registerAt request now).2.accepted := by
  rw [accepted_eq_admits]
  constructor
  · exact registerAt_of_not_admits
  · intro outside
    by_contra admitted
    exact absurd (admits_spec (Bool.eq_true_of_not_eq_false admitted)).1
      (UInt32.not_lt.mpr outside)
  · intro role
    by_contra admitted
    exact (admits_spec (Bool.eq_true_of_not_eq_false admitted)).2.1 role
  · intro current role leads different recent
    by_contra admitted
    have dead := (admits_spec (Bool.eq_true_of_not_eq_false admitted)).2.2
      current role leads different
    rw [isDead, decide_eq_true_eq] at dead
    exact absurd recent (Nat.not_le.mpr dead)
  · intro current admitted role leads different
    exact (admits_spec admitted).2.2 current role leads different
  · intro admitted role
    rcases registry.registerAt_cases request now with
      ⟨refused, -⟩ | ⟨-, -, -, after⟩ | ⟨-, -, follows, -⟩
    · rw [admitted] at refused
      contradiction
    · rw [after]
      refine ⟨rfl, ?_, ?_⟩
      · rw [getElem?_insert, if_pos rfl]
      · intro other different
        rw [getElem?_insert, if_neg (Ne.symm different)]
    · rw [role] at follows
      contradiction
  · intro admitted role
    rcases registry.registerAt_cases request now with
      ⟨refused, -⟩ | ⟨-, -, leads, -⟩ | ⟨-, -, -, after⟩
    · rw [admitted] at refused
      contradiction
    · rw [role] at leads
      contradiction
    · rw [after]
      refine ⟨rfl, ?_, ?_⟩
      · intro other different
        rw [getElem?_alter, if_neg (Ne.symm different)]
      · obtain ⟨front, back, entered, others, before⟩ :=
          enterFollower_split (registry.followers[request.shardId]?.getD [])
            (entryOf request now)
        refine ⟨front, back, ?_, others, before⟩
        rw [getElem?_alter, if_pos rfl, entered]

end Registry

end AetherEngine.Coordinator
