import AetherEngine.Foundations.Ranking
import AetherEngine.Foundations.Tables
import Std.Data.ExtTreeSet

/-!
# The coordinator's registry

Which node leads each shard and which nodes follow, built up from registrations,
heartbeats and leadership reports, next to the operator's intent: the
virtual-shard table and the set of draining nodes.

Times are natural numbers, and a duration since a later time is zero.  Passes
over the hash maps take the orders in which they meet the entries.
-/

namespace AetherEngine.Coordinator

open AetherEngine.Ranking
open AetherEngine.Tables

inductive NodeRole where
  | unspecified
  | leader
  | follower
deriving DecidableEq, Repr

/-- A registered node. -/
structure NodeInfo where
  nodeId : String
  address : String
  role : NodeRole
  /-- When the node was last heard of. -/
  lastSeen : Nat
deriving DecidableEq, Repr

/-- One node of a point-in-time view. -/
structure NodeSnapshot where
  nodeId : String
  address : String
  role : NodeRole
  shardId : UInt32
  sinceSeen : Nat
  draining : Bool
deriving DecidableEq, Repr

structure RegisterNodeRequest where
  nodeId : String
  address : String
  shardId : UInt32
  role : NodeRole
deriving DecidableEq, Repr

structure RegisterNodeResponse where
  accepted : Bool
  clusterSize : UInt32
  message : String
deriving DecidableEq, Repr

structure Registry where
  shardCount : UInt32
  livenessTimeout : Nat
  leaders : Std.ExtTreeMap UInt32 NodeInfo
  followers : Std.ExtTreeMap UInt32 (List NodeInfo)
  /-- Nodes marked for removal from their group. -/
  draining : Std.ExtTreeSet String
  /-- The owning group of every virtual shard; empty under plain placement. -/
  vshards : List UInt32
  placementVersion : Nat
  /-- The table and the drain set belong to a replication layer. -/
  authorityReplicated : Bool

/-- The orders in which a call meets the entries of the two maps. -/
structure RegistryPasses where
  leaders : IterationOrder (UInt32 × NodeInfo)
  followers : IterationOrder (UInt32 × List NodeInfo)

/-- Change the first element that matches. -/
def updateFirst {α : Type} (matching : α → Bool) (change : α → α) :
    List α → List α
  | [] => []
  | head :: tail =>
      if matching head then
        change head :: tail
      else
        head :: updateFirst matching change tail

namespace NodeSnapshot

def fromInfo (info : NodeInfo) (shardId : UInt32) (now : Nat) :
    NodeSnapshot where
  nodeId := info.nodeId
  address := info.address
  role := info.role
  shardId := shardId
  sinceSeen := now - info.lastSeen
  draining := false

end NodeSnapshot

namespace Registry

/-! ## Construction and the operator's intent -/

def defaultLivenessTimeout : Nat := 15000

def new (shardCount : UInt32) : Registry where
  shardCount := shardCount
  livenessTimeout := defaultLivenessTimeout
  leaders := ∅
  followers := ∅
  draining := ∅
  vshards := []
  placementVersion := 0
  authorityReplicated := false

def withLivenessTimeout (registry : Registry) (timeout : Nat) : Registry :=
  { registry with livenessTimeout := timeout }

/-- `v` virtual shards, assigned round-robin; no table without shards. -/
def withVshards (registry : Registry) (v : UInt32) : Option Registry :=
  if registry.shardCount = 0 ∧ v ≠ 0 then
    none
  else
    some { registry with
      vshards := (List.range v.toNat).map
        (fun number => number.toUInt32 % registry.shardCount) }

def withReplicatedAuthority (registry : Registry) : Registry :=
  { registry with authorityReplicated := true }

/-- Check a reassignment without applying it. -/
def validateReassign (registry : Registry) (vshard group : UInt32) :
    Except String Unit :=
  if registry.vshards.isEmpty then
    .error "virtual shards are not enabled"
  else if registry.vshards.length ≤ vshard.toNat then
    .error ("vshard " ++ toString vshard ++ " out of range (V=" ++
      toString registry.vshards.length ++ ")")
  else if registry.shardCount ≤ group then
    .error ("group " ++ toString group ++ " out of range (N=" ++
      toString registry.shardCount ++ ")")
  else
    .ok ()

/-- Move one virtual shard to another group. -/
def reassignVshard (registry : Registry) (vshard group : UInt32) :
    Registry × Except String Unit :=
  match registry.validateReassign vshard group with
  | .error message => (registry, .error message)
  | .ok () =>
      ({ registry with
          vshards := registry.vshards.set vshard.toNat group
          placementVersion := registry.placementVersion + 1 }, .ok ())

def applyDrainMarker (registry : Registry) (nodeId : String) : Registry :=
  { registry with draining := registry.draining.insert nodeId }

/-- The authoritative state, the drain set in ascending order. -/
def authority (registry : Registry) : List UInt32 × List String :=
  (registry.vshards, registry.draining.toList)

/-- Replace the authoritative state wholesale. -/
def setAuthority (registry : Registry) (vshards : List UInt32)
    (draining : List String) : Registry :=
  { registry with
    vshards := vshards
    draining := Std.ExtTreeSet.ofList draining
    placementVersion := registry.placementVersion + 1 }

/-! ## Nodes -/

/-- Every leader entry and every follower entry, with its shard. -/
def entries (registry : Registry) : List (UInt32 × NodeInfo) :=
  registry.leaders.toList ++
    registry.followers.toList.flatMap
      (fun group => group.2.map (fun info => (group.1, info)))

def knowsNode (registry : Registry) (nodeId : String) : Bool :=
  registry.entries.any (fun entry => entry.2.nodeId = nodeId)

def reject (registry : Registry) (message : String) : RegisterNodeResponse :=
  { accepted := false, clusterSize := registry.shardCount, message := message }

/-- The shard's leader, when it is live and another node than the
requester. -/
def liveRival (registry : Registry) (request : RegisterNodeRequest)
    (now : Nat) : Option NodeInfo :=
  (registry.leaders[request.shardId]?).filter
    (fun current =>
      now - current.lastSeen ≤ registry.livenessTimeout &&
        current.nodeId ≠ request.nodeId)

def accept (registry : Registry) (request : RegisterNodeRequest)
    (role : String) : RegisterNodeResponse :=
  { accepted := true
    clusterSize := registry.shardCount
    message := "registered shard " ++ toString request.shardId ++ " as " ++
      role }

/-- Enter the node among the shard's followers, in place if it is there. -/
def enterFollower (nodes : List NodeInfo) (info : NodeInfo) : List NodeInfo :=
  if nodes.any (fun node => node.nodeId = info.nodeId) then
    updateFirst (fun node => node.nodeId = info.nodeId) (fun _ => info) nodes
  else
    nodes ++ [info]

/-- Handle a node registration. -/
def registerAt (registry : Registry) (request : RegisterNodeRequest)
    (now : Nat) : Registry × RegisterNodeResponse :=
  if registry.shardCount ≤ request.shardId then
    (registry, registry.reject
      ("shard_id " ++ toString request.shardId ++ " out of range for N=" ++
        toString registry.shardCount))
  else
    let info : NodeInfo :=
      { nodeId := request.nodeId
        address := request.address
        role := request.role
        lastSeen := now }
    match request.role with
    | .leader =>
        match registry.liveRival request now with
        | some current =>
            (registry, registry.reject
              ("shard " ++ toString request.shardId ++
                " already has a live leader '" ++ current.nodeId ++
                "'; rejecting takeover by '" ++ request.nodeId ++ "'"))
        | none =>
            ({ registry with
                leaders := registry.leaders.insert request.shardId info },
              registry.accept request "Leader")
    | .follower =>
        ({ registry with
            followers := registry.followers.alter request.shardId
              (fun nodes => some (enterFollower (nodes.getD []) info)) },
          registry.accept request "Follower")
    | .unspecified => (registry, registry.reject "role unspecified")

/-- Every shard has a registered leader, as the number of leaders tells. -/
def allShardsHaveLeader (registry : Registry) : Bool :=
  registry.leaders.size.toUInt32 == registry.shardCount

/-- The shard a node leads, as a pass over the leaders finds it. -/
def ledShard (passes : RegistryPasses) (registry : Registry)
    (nodeId : String) : Option UInt32 :=
  ((passes.leaders.arrange registry.leaders.toList).find?
    (fun entry => entry.2.nodeId = nodeId)).map Prod.fst

/-- The shard a node follows, as a pass over the followers finds it. -/
def followedShard (passes : RegistryPasses) (registry : Registry)
    (nodeId : String) : Option UInt32 :=
  ((passes.followers.arrange registry.followers.toList).find?
    (fun group => group.2.any (fun node => node.nodeId = nodeId))).map Prod.fst

/-- Refresh a leader's liveness. -/
def touchLeader (registry : Registry) (shard : UInt32) (now : Nat) :
    Registry :=
  { registry with
    leaders := registry.leaders.alter shard
      (fun info => info.map (fun info => { info with lastSeen := now })) }

/-- Refresh a node's liveness; tells its role, if it is known. -/
def heartbeat (passes : RegistryPasses) (registry : Registry)
    (nodeId : String) (now : Nat) : Registry × Option NodeRole :=
  match registry.ledShard passes nodeId with
  | some shard => (registry.touchLeader shard now, some .leader)
  | none =>
      match registry.followedShard passes nodeId with
      | some shard =>
          ({ registry with
              followers := registry.followers.alter shard
                (fun nodes => nodes.map
                  (updateFirst (fun node => node.nodeId = nodeId)
                    (fun node => { node with lastSeen := now }))) },
            some .follower)
      | none => (registry, none)

/-- A node has not been heard of within the timeout. -/
def isDead (now timeout : Nat) (info : NodeInfo) : Bool :=
  timeout < now - info.lastSeen

/-- Remove the nodes not heard of within the timeout and return them. -/
def reapDead (passes : RegistryPasses) (registry : Registry)
    (now timeout : Nat) : Registry × List NodeInfo :=
  let deadLeaders := (passes.leaders.arrange registry.leaders.toList).filter
    (fun entry => isDead now timeout entry.2)
  let deadFollowers :=
    (passes.followers.arrange registry.followers.toList).flatMap
      (fun group => group.2.filter (isDead now timeout))
  let removed := deadLeaders.map Prod.snd ++ deadFollowers
  ({ registry with
      leaders := deadLeaders.foldl
        (fun leaders entry => leaders.erase entry.1) registry.leaders
      followers := registry.followers.map
        (fun _ nodes => nodes.filter (fun node => !isDead now timeout node))
      -- replicated authority is not this coordinator's to edit
      draining :=
        if registry.authorityReplicated then
          registry.draining
        else
          removed.foldl (fun draining node => draining.erase node.nodeId)
            registry.draining }, removed)

/-- Make a node the routed leader of its shard; the old leader follows. -/
def installLeader (registry : Registry) (shard : UInt32)
    (nodes : List NodeInfo) (promoted : NodeInfo) (now : Nat) : Registry :=
  let remaining := nodes.eraseP (fun node => node.nodeId = promoted.nodeId)
  let demoted := match registry.leaders[shard]? with
    | some old => remaining ++ [{ old with role := .follower }]
    | none => remaining
  { registry with
    leaders := registry.leaders.insert shard
      { promoted with role := .leader, lastSeen := now }
    followers := registry.followers.insert shard demoted }

/-- A node reports that it leads its group; tells the shard if this changed the
routed leader. -/
def reportRaftLeader (passes : RegistryPasses) (registry : Registry)
    (nodeId : String) (now : Nat) : Registry × Option UInt32 :=
  match registry.ledShard passes nodeId with
  | some shard => (registry.touchLeader shard now, none)
  | none =>
      match registry.followedShard passes nodeId with
      | none => (registry, none)
      | some shard =>
          let nodes := registry.followers[shard]?.getD []
          match nodes.find? (fun node => node.nodeId = nodeId) with
          | none => (registry, none)
          | some promoted =>
              (registry.installLeader shard nodes promoted now, some shard)

/-- Mark a known node for removal from its group. -/
def markDraining (registry : Registry) (nodeId : String) : Registry × Bool :=
  if registry.knowsNode nodeId then
    ({ registry with draining := registry.draining.insert nodeId }, true)
  else
    (registry, false)

/-- Promote the last follower of a shard without a leader. -/
def promoteShard (registry : Registry) (shard : UInt32) :
    Registry × Option (UInt32 × String) :=
  if shard ∈ registry.leaders then
    (registry, none)
  else
    let nodes := registry.followers[shard]?.getD []
    match nodes.getLast? with
    | none => (registry, none)
    | some node =>
        ({ registry with
            leaders := registry.leaders.insert shard
              { node with role := .leader }
            followers :=
              if nodes.dropLast.isEmpty then
                registry.followers.erase shard
              else
                registry.followers.insert shard nodes.dropLast },
          some (shard, node.nodeId))

/-- Promote a follower in every shard that has followers but no leader. -/
def promoteOrphanedShards (passes : RegistryPasses) (registry : Registry) :
    Registry × List (UInt32 × String) :=
  let shards :=
    (passes.followers.arrange registry.followers.toList).map Prod.fst
  shards.foldl
    (fun (registry, promotions) shard =>
      let (registry, promotion) := registry.promoteShard shard
      (registry, promotions ++ promotion.toList))
    (registry, [])

/-! ## Views -/

/-- By shard, leaders first, then node id. -/
def cmpSnapshots (first second : NodeSnapshot) : Ordering :=
  ((compare first.shardId second.shardId).then
    (compare (decide (first.role ≠ .leader)) (decide (second.role ≠ .leader)))).then
      (compare first.nodeId second.nodeId)

/-- A point-in-time view of every known node. -/
def snapshot (passes : RegistryPasses) (registry : Registry) (now : Nat) :
    List NodeSnapshot :=
  let view := fun (shard : UInt32) (info : NodeInfo) =>
    { NodeSnapshot.fromInfo info shard now with
      draining := registry.draining.contains info.nodeId }
  let nodes :=
    (passes.leaders.arrange registry.leaders.toList).map
        (fun entry => view entry.1 entry.2) ++
      (passes.followers.arrange registry.followers.toList).flatMap
        (fun group => group.2.map (view group.1))
  sortBy (fun first second => (cmpSnapshots first second).isLE) nodes

/-- Every registered member of one shard. -/
def membersOf (passes : RegistryPasses) (registry : Registry)
    (shard : UInt32) (now : Nat) : List NodeSnapshot :=
  (registry.snapshot passes now).filter (fun node => node.shardId = shard)

end Registry

end AetherEngine.Coordinator
