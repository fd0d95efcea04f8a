import AetherEngine.Consensus.WalCodec
import AetherEngine.Coordinator.RegistryNodes

/-!
# The coordinator state group

The coordinator replicas agree by a log on the operator's intent: the
virtual-shard table and the set of draining nodes.  The rest of a registry is a
view that every replica builds up by itself.

However a replica reaches a position of the log, its intent is the one the log
up to there gives.  Its placement version is not: it counts the reassignments
applied and the snapshots restored, and the snapshot does not carry it.
-/

namespace AetherEngine.Coordinator

open AetherEngine.Bincode
open AetherEngine.Consensus
open AetherEngine.Frames
open AetherEngine.Runs

/-! ## Commands and snapshots -/

/-- One replicated command of the operator. -/
inductive Command where
  | reassignVShard (vshard group : UInt32)
  | drainNode (nodeId : String)
deriving DecidableEq, Repr

/-- The snapshot form of the operator's intent. -/
structure Authority where
  vshards : List UInt32
  draining : List String
deriving DecidableEq, Repr

def commandLayout : Layout Command where
  write
    | .reassignVShard vshard group =>
        variant 0 ((both uint32 uint32).write (vshard, group))
    | .drainNode nodeId => variant 1 (text.write nodeId)
  read bytes := do
    let (number, rest) ← readNat 4 bytes
    match number with
    | 0 => (both uint32 uint32).read rest |>.map fun found =>
        (.reassignVShard found.1.1 found.1.2, found.2)
    | 1 => text.read rest |>.map fun found => (.drainNode found.1, found.2)
    | _ => none
  write_pos command := by
    cases command <;> simp only [variant_length] <;> omega
  read_write command rest short := by
    cases command with
    | reassignVShard vshard group =>
        simp only [variant_length] at short
        simp [readNat_variant, (both uint32 uint32).read_write
          (vshard, group) rest (by omega)]
    | drainNode nodeId =>
        simp only [variant_length] at short
        simp [readNat_variant, text.read_write nodeId rest (by omega)]

def authorityLayout : Layout Authority :=
  through (both (listOf uint32) (listOf text))
    (fun fields => ⟨fields.1, fields.2⟩)
    (fun authority => (authority.vshards, authority.draining))
    (fun _ => rfl)

/-- Decode a payload from its front. -/
def decodeCommand (payload : Bytes) : Option Command :=
  (commandLayout.read payload).map Prod.fst

def decodeAuthority (bytes : Bytes) : Option Authority :=
  (authorityLayout.read bytes).map Prod.fst

/-! ## The state machine -/

namespace ControlApp

/-- Apply one committed payload; tells how many commands it was. -/
def apply (registry : Registry) (payload : Bytes) : Registry × Nat :=
  match decodeCommand payload with
  | some (.reassignVShard vshard group) =>
      ((registry.reassignVshard vshard group).1, 1)
  | some (.drainNode nodeId) => (registry.applyDrainMarker nodeId, 1)
  | none => (registry, 0)

/-- The operator's intent as a snapshot holds it. -/
def authorityOf (registry : Registry) : Authority where
  vshards := registry.authority.1
  draining := registry.authority.2

def snapshotBytes (registry : Registry) : Bytes :=
  authorityLayout.write (authorityOf registry)

/-- Install a snapshot; an undecodable one is taken for an empty one. -/
def restore (registry : Registry) (bytes : Bytes) : Registry × Nat :=
  let authority := (decodeAuthority bytes).getD ⟨[], []⟩
  (registry.setAuthority authority.vshards authority.draining,
    authority.vshards.length + authority.draining.length)

end ControlApp

/-! ## Replicas -/

/-- A replica's registry and how many log entries it covers. -/
structure Replica where
  registry : Registry
  position : Nat

inductive ReplicaStep where
  /-- A call on the registry that the group does not replicate. -/
  | view (op : RegistryOp)
  /-- The next committed entry is applied. -/
  | applyNext
  /-- A snapshot of the first `position` entries is installed. -/
  | restore (bytes : Bytes) (position : Nat)
  /-- The process restarts with an empty registry. -/
  | restart

/-- A new coordinator of a state group, or the panic of a table over no
groups. -/
def newCoordinator (shardCount v : UInt32) (timeout : Nat) :
    Option Registry :=
  let registry := (Registry.new shardCount).withLivenessTimeout timeout
  (if v = 0 then some registry else registry.withVshards v).map
    Registry.withReplicatedAuthority

def Replica.step (fresh : Registry) (log : List Bytes)
    (replica : Replica) : ReplicaStep → Replica
  | .view op => { replica with registry := op.step replica.registry }
  | .applyNext =>
      match log[replica.position]? with
      | some payload =>
          { registry := (ControlApp.apply replica.registry payload).1
            position := replica.position + 1 }
      | none => replica
  | .restore bytes position =>
      { registry := (ControlApp.restore replica.registry bytes).1
        position := position }
  | .restart => { registry := fresh, position := 0 }

/-- Registrations, heartbeats, leadership reports, reaping and promotions: what
builds up the view. -/
def RegistryOp.IsView : RegistryOp → Prop
  | markDraining _ => False
  | _ => True

/-- The replicas of one state group, by any mix of steps.  A snapshot restored
is one that some replica of the group took. -/
inductive Reached (shardCount v : UInt32) (log : List Bytes) :
    Replica → Prop where
  | created {timeout : Nat} {fresh : Registry}
      (isNew : newCoordinator shardCount v timeout = some fresh) :
      Reached shardCount v log ⟨fresh, 0⟩
  | view {replica : Replica} {op : RegistryOp}
      (before : Reached shardCount v log replica) (isView : op.IsView) :
      Reached shardCount v log ⟨op.step replica.registry, replica.position⟩
  | applied {replica : Replica} {payload : Bytes}
      (before : Reached shardCount v log replica)
      (committed : log[replica.position]? = some payload) :
      Reached shardCount v log
        ⟨(ControlApp.apply replica.registry payload).1, replica.position + 1⟩
  | restored {replica taken : Replica}
      (before : Reached shardCount v log replica)
      (atCut : Reached shardCount v log taken)
      (short : (ControlApp.snapshotBytes taken.registry).length < 2 ^ 64) :
      Reached shardCount v log
        ⟨(ControlApp.restore replica.registry
          (ControlApp.snapshotBytes taken.registry)).1, taken.position⟩

/-! ## The operator's intent by itself -/

/-- The virtual-shard table and the draining nodes. -/
structure Intent where
  vshards : List UInt32
  draining : Std.ExtTreeSet String

def Registry.intent (registry : Registry) : Intent where
  vshards := registry.vshards
  draining := registry.draining

namespace Intent

/-- The round-robin table, and no node draining. -/
def initial (shardCount v : UInt32) : Intent where
  vshards := (List.range v.toNat).map
    (fun number => number.toUInt32 % shardCount)
  draining := ∅

/-- A reassignment inside the table moves one entry; any other does nothing. -/
def perform (shardCount : UInt32) (intent : Intent) : Command → Intent
  | .reassignVShard vshard group =>
      if vshard.toNat < intent.vshards.length ∧ group < shardCount then
        { intent with vshards := intent.vshards.set vshard.toNat group }
      else
        intent
  | .drainNode nodeId =>
      { intent with draining := intent.draining.insert nodeId }

def afterPayload (shardCount : UInt32) (intent : Intent)
    (payload : Bytes) : Intent :=
  (decodeCommand payload).elim intent (intent.perform shardCount)

/-- The intent the first `position` entries of the log give. -/
def after (shardCount v : UInt32) (log : List Bytes) (position : Nat) :
    Intent :=
  (log.take position).foldl (afterPayload shardCount)
    (initial shardCount v)

theorem after_succ (shardCount v : UInt32) {log : List Bytes}
    {position : Nat} {payload : Bytes}
    (committed : log[position]? = some payload) :
    after shardCount v log (position + 1) =
      (after shardCount v log position).afterPayload shardCount payload := by
  rw [after, List.take_add_one, committed, List.foldl_append]
  rfl

private theorem length_perform (shardCount : UInt32) (intent : Intent)
    (command : Command) :
    (intent.perform shardCount command).vshards.length =
      intent.vshards.length := by
  cases command with
  | reassignVShard vshard group =>
      by_cases inside : vshard.toNat < intent.vshards.length ∧
        group < shardCount
      · rw [perform, if_pos inside, List.length_set]
      · rw [perform, if_neg inside]
  | drainNode nodeId =>
      rfl

private theorem lt_of_mem_perform {shardCount : UInt32} {intent : Intent}
    (below : ∀ group ∈ intent.vshards, group < shardCount)
    (command : Command) :
    ∀ group ∈ (intent.perform shardCount command).vshards,
      group < shardCount := by
  cases command with
  | reassignVShard vshard target =>
      by_cases inside : vshard.toNat < intent.vshards.length ∧
        target < shardCount
      · rw [perform, if_pos inside]
        intro group member
        rcases List.mem_or_eq_of_mem_set member with old | rfl
        · exact below group old
        · exact inside.2
      · rw [perform, if_neg inside]
        exact below
  | drainNode nodeId =>
      exact below

/-- What every command keeps, the intent of every log has. -/
theorem after_induction {shardCount v : UInt32} {good : Intent → Prop}
    (begins : good (initial shardCount v))
    (kept : ∀ intent command, good intent →
      good (intent.perform shardCount command))
    (log : List Bytes) (position : Nat) :
    good (after shardCount v log position) := by
  rw [after]
  generalize initial shardCount v = intent at begins ⊢
  induction log.take position generalizing intent with
  | nil =>
      exact begins
  | cons payload rest inductionHypothesis =>
      apply inductionHypothesis
      rw [afterPayload]
      cases decodeCommand payload with
      | none => exact begins
      | some command => exact kept intent command begins

/-- The table keeps its length. -/
theorem length_after (shardCount v : UInt32) (log : List Bytes)
    (position : Nat) :
    (after shardCount v log position).vshards.length = v.toNat := by
  have begins : (initial shardCount v).vshards.length = v.toNat := by
    rw [initial, List.length_map, List.length_range]
  exact after_induction begins
    (fun intent command sameLength =>
      (length_perform shardCount intent command).trans sameLength)
    log position

/-- The table names groups of the cluster only. -/
theorem lt_of_mem_after {shardCount v : UInt32}
    (populated : v ≠ 0 → shardCount ≠ 0) (log : List Bytes)
    (position : Nat) :
    ∀ group ∈ (after shardCount v log position).vshards,
      group < shardCount := by
  have begins : ∀ group ∈ (initial shardCount v).vshards,
      group < shardCount := by
    intro group member
    simp only [initial, List.mem_map, List.mem_range] at member
    obtain ⟨number, small, rfl⟩ := member
    have counted : v ≠ 0 := by
      intro equality
      subst equality
      exact absurd small (Nat.not_lt_zero number)
    apply UInt32.mod_lt
    exact UInt32.pos_iff_ne_zero.mpr (populated counted)
  exact @after_induction shardCount v
    (fun intent => ∀ group ∈ intent.vshards, group < shardCount) begins
    (fun _ command below => lt_of_mem_perform below command) log position

end Intent

/-! ## One step of a replica -/

/-- The intent, its version and the configuration are the same. -/
structure Registry.KeepsIntent (before after : Registry) : Prop where
  shardCount : after.shardCount = before.shardCount
  replicated : after.authorityReplicated = before.authorityReplicated
  intent : after.intent = before.intent
  placementVersion : after.placementVersion = before.placementVersion

namespace Registry

theorem keepsIntent_registerAt (registry : Registry)
    (request : RegisterNodeRequest) (now : Nat) :
    registry.KeepsIntent (registry.registerAt request now).1 := by
  unfold registerAt
  split
  · exact ⟨rfl, rfl, rfl, rfl⟩
  · cases request.role with
    | unspecified => exact ⟨rfl, rfl, rfl, rfl⟩
    | follower => exact ⟨rfl, rfl, rfl, rfl⟩
    | leader =>
        cases registry.liveRival request now with
        | none => exact ⟨rfl, rfl, rfl, rfl⟩
        | some current => exact ⟨rfl, rfl, rfl, rfl⟩

theorem keepsIntent_heartbeat (passes : RegistryPasses)
    (registry : Registry) (nodeId : String) (now : Nat) :
    registry.KeepsIntent (registry.heartbeat passes nodeId now).1 := by
  unfold heartbeat
  cases registry.ledShard passes nodeId with
  | some shard => exact ⟨rfl, rfl, rfl, rfl⟩
  | none =>
      cases registry.followedShard passes nodeId with
      | some shard => exact ⟨rfl, rfl, rfl, rfl⟩
      | none => exact ⟨rfl, rfl, rfl, rfl⟩

theorem keepsIntent_reportRaftLeader (passes : RegistryPasses)
    (registry : Registry) (nodeId : String) (now : Nat) :
    registry.KeepsIntent (registry.reportRaftLeader passes nodeId now).1 := by
  unfold reportRaftLeader
  cases registry.ledShard passes nodeId with
  | some shard => exact ⟨rfl, rfl, rfl, rfl⟩
  | none =>
      cases registry.followedShard passes nodeId with
      | none => exact ⟨rfl, rfl, rfl, rfl⟩
      | some shard =>
          dsimp only
          split
          · exact ⟨rfl, rfl, rfl, rfl⟩
          · exact ⟨rfl, rfl, rfl, rfl⟩

/-- Reaping leaves a replicated drain set alone. -/
theorem keepsIntent_reapDead (passes : RegistryPasses)
    {registry : Registry} (replicated : registry.authorityReplicated = true)
    (now timeout : Nat) :
    registry.KeepsIntent (registry.reapDead passes now timeout).1 := by
  refine ⟨rfl, rfl, ?_, rfl⟩
  simp only [reapDead, intent, replicated, if_true]

private theorem keepsIntent_promoteShard (registry : Registry)
    (shard : UInt32) :
    registry.KeepsIntent (registry.promoteShard shard).1 := by
  unfold promoteShard
  split
  · exact ⟨rfl, rfl, rfl, rfl⟩
  · dsimp only
    split
    · exact ⟨rfl, rfl, rfl, rfl⟩
    · exact ⟨rfl, rfl, rfl, rfl⟩

theorem KeepsIntent.trans {first second third : Registry}
    (earlier : first.KeepsIntent second) (later : second.KeepsIntent third) :
    first.KeepsIntent third where
  shardCount := later.shardCount.trans earlier.shardCount
  replicated := later.replicated.trans earlier.replicated
  intent := later.intent.trans earlier.intent
  placementVersion := later.placementVersion.trans earlier.placementVersion

theorem keepsIntent_promoteOrphanedShards (passes : RegistryPasses)
    (registry : Registry) :
    registry.KeepsIntent (registry.promoteOrphanedShards passes).1 := by
  rw [promoteOrphanedShards]
  generalize ([] : List (UInt32 × String)) = promotions
  induction (passes.followers.arrange registry.followers.toList).map
      Prod.fst generalizing registry promotions with
  | nil =>
      exact ⟨rfl, rfl, rfl, rfl⟩
  | cons shard rest inductionHypothesis =>
      exact (keepsIntent_promoteShard registry shard).trans
        (inductionHypothesis _ _)

end Registry

private theorem RegistryOp.keepsIntent_step {registry : Registry}
    (replicated : registry.authorityReplicated = true) {op : RegistryOp}
    (isView : op.IsView) : registry.KeepsIntent (op.step registry) := by
  cases op with
  | registerAt request now =>
      exact registry.keepsIntent_registerAt request now
  | heartbeat passes nodeId now =>
      exact registry.keepsIntent_heartbeat passes nodeId now
  | reportRaftLeader passes nodeId now =>
      exact registry.keepsIntent_reportRaftLeader passes nodeId now
  | reapDead passes now timeout =>
      exact Registry.keepsIntent_reapDead passes replicated now timeout
  | promoteOrphanedShards passes =>
      exact registry.keepsIntent_promoteOrphanedShards passes
  | markDraining nodeId =>
      exact absurd isView id

/-- No call on the nodes changes the configuration. -/
theorem RegistryOp.keepsConfiguration_step (registry : Registry)
    (next : RegistryOp) :
    (next.step registry).shardCount = registry.shardCount ∧
      (next.step registry).authorityReplicated =
        registry.authorityReplicated := by
  cases next with
  | registerAt request now =>
      have kept := registry.keepsIntent_registerAt request now
      exact ⟨kept.shardCount, kept.replicated⟩
  | heartbeat passes nodeId now =>
      have kept := registry.keepsIntent_heartbeat passes nodeId now
      exact ⟨kept.shardCount, kept.replicated⟩
  | reportRaftLeader passes nodeId now =>
      have kept := registry.keepsIntent_reportRaftLeader passes nodeId now
      exact ⟨kept.shardCount, kept.replicated⟩
  | reapDead passes now timeout =>
      exact ⟨rfl, rfl⟩
  | promoteOrphanedShards passes =>
      have kept := registry.keepsIntent_promoteOrphanedShards passes
      exact ⟨kept.shardCount, kept.replicated⟩
  | markDraining nodeId =>
      unfold RegistryOp.step Registry.markDraining
      dsimp only
      split
      · exact ⟨rfl, rfl⟩
      · exact ⟨rfl, rfl⟩

theorem Registry.validateReassign_eq_ok_iff (registry : Registry)
    (vshard group : UInt32) :
    registry.validateReassign vshard group = .ok () ↔
      vshard.toNat < registry.vshards.length ∧
        group < registry.shardCount := by
  unfold validateReassign
  by_cases empty : registry.vshards.isEmpty = true
  · rw [if_pos empty, List.isEmpty_iff] at *
    simp [empty]
  · rw [if_neg empty]
    by_cases beyond : registry.vshards.length ≤ vshard.toNat
    · rw [if_pos beyond]
      simp [Nat.not_lt.mpr beyond]
    · rw [if_neg beyond]
      by_cases outside : registry.shardCount ≤ group
      · rw [if_pos outside]
        simp [UInt32.not_lt.mpr outside]
      · rw [if_neg outside]
        simp [Nat.not_le.mp beyond, UInt32.not_le.mp outside]

namespace ControlApp

/-- A payload changes the intent as its command says. -/
theorem apply_spec (registry : Registry) (payload : Bytes) :
    (apply registry payload).1.shardCount = registry.shardCount ∧
      (apply registry payload).1.authorityReplicated =
        registry.authorityReplicated ∧
      (apply registry payload).1.intent =
        registry.intent.afterPayload registry.shardCount payload := by
  cases decoded : decodeCommand payload with
  | none =>
      simp [apply, decoded, Intent.afterPayload]
  | some command =>
      cases command with
      | drainNode nodeId =>
          simp [apply, decoded, Intent.afterPayload, Intent.perform,
            Registry.applyDrainMarker, Registry.intent]
      | reassignVShard vshard group =>
          simp only [apply, decoded, Intent.afterPayload, Option.elim_some,
            Intent.perform, Registry.reassignVshard]
          have verdict := registry.validateReassign_eq_ok_iff vshard group
          cases checked : registry.validateReassign vshard group with
          | error message =>
              rw [checked] at verdict
              have outside : ¬ (vshard.toNat < registry.intent.vshards.length ∧
                  group < registry.shardCount) :=
                fun inside => nomatch verdict.mpr inside
              rw [if_neg outside]
              exact ⟨rfl, rfl, rfl⟩
          | ok =>
              rw [checked] at verdict
              have inside : vshard.toNat < registry.intent.vshards.length ∧
                  group < registry.shardCount := verdict.mp rfl
              rw [if_pos inside]
              exact ⟨rfl, rfl, rfl⟩

theorem decodeAuthority_snapshotBytes {registry : Registry}
    (short : (snapshotBytes registry).length < 2 ^ 64) :
    decodeAuthority (snapshotBytes registry) = some (authorityOf registry) := by
  have read := authorityLayout.read_write (authorityOf registry) [] short
  rw [List.append_nil] at read
  rw [decodeAuthority, snapshotBytes, read, Option.map_some]

/-- A snapshot brings its intent over any registry. -/
theorem intent_restore (registry taken : Registry)
    (short : (snapshotBytes taken).length < 2 ^ 64) :
    (restore registry (snapshotBytes taken)).1.intent = taken.intent := by
  have draining : Std.ExtTreeSet.ofList taken.draining.toList =
      taken.draining := by
    apply Std.ExtTreeSet.ext_mem
    intro nodeId
    rw [Std.ExtTreeSet.mem_ofList, List.contains_iff_mem,
      Std.ExtTreeSet.mem_toList]
  simp only [restore, decodeAuthority_snapshotBytes short, Option.getD_some,
    authorityOf, Registry.authority, Registry.setAuthority, Registry.intent,
    draining]

end ControlApp

/-! ## Following the log -/

/-- The replica's intent is the one the log gives at its position. -/
structure FollowsLog (shardCount v : UInt32) (log : List Bytes)
    (replica : Replica) : Prop where
  configured : replica.registry.shardCount = shardCount
  replicated : replica.registry.authorityReplicated = true
  populated : v ≠ 0 → shardCount ≠ 0
  intent : replica.registry.intent =
    Intent.after shardCount v log replica.position

/-- A new coordinator follows any log from its beginning, with nothing counted
in its version. -/
theorem newCoordinator_spec {shardCount v : UInt32} {timeout : Nat}
    {fresh : Registry}
    (isNew : newCoordinator shardCount v timeout = some fresh)
    (log : List Bytes) :
    FollowsLog shardCount v log ⟨fresh, 0⟩ ∧ fresh.placementVersion = 0 := by
  by_cases empty : v = 0
  · rw [newCoordinator, if_pos empty, Option.map_some] at isNew
    cases isNew
    subst empty
    exact ⟨⟨rfl, rfl, fun counted => absurd rfl counted, rfl⟩, rfl⟩
  · rw [newCoordinator, if_neg empty, Option.map_eq_some_iff] at isNew
    obtain ⟨registry, built, rfl⟩ := isNew
    rw [Registry.withVshards, Option.ite_none_left_eq_some] at built
    obtain ⟨grouped, same⟩ := built
    cases same
    refine ⟨⟨rfl, rfl, ?_, rfl⟩, rfl⟩
    intro counted equality
    subst equality
    exact grouped ⟨rfl, counted⟩

/-- However a replica is reached, it follows the log. -/
theorem followsLog_of_reached {shardCount v : UInt32} {log : List Bytes}
    {replica : Replica} (reached : Reached shardCount v log replica) :
    FollowsLog shardCount v log replica := by
  induction reached with
  | created isNew =>
      exact (newCoordinator_spec isNew log).1
  | view before isView follows =>
      have kept := RegistryOp.keepsIntent_step follows.replicated isView
      exact
        { configured := kept.shardCount.trans follows.configured
          replicated := kept.replicated.trans follows.replicated
          populated := follows.populated
          intent := kept.intent.trans follows.intent }
  | @applied replica payload before committed follows =>
      obtain ⟨sameCount, sameFlag, intent⟩ :=
        ControlApp.apply_spec replica.registry payload
      exact
        { configured := sameCount.trans follows.configured
          replicated := sameFlag.trans follows.replicated
          populated := follows.populated
          intent := by
            rw [Intent.after_succ shardCount v committed, ← follows.intent,
              intent, follows.configured] }
  | @restored replica taken before atCut short follows takenFollows =>
      exact
        { configured := follows.configured
          replicated := follows.replicated
          populated := follows.populated
          intent := (ControlApp.intent_restore replica.registry
            taken.registry short).trans takenFollows.intent }

theorem FollowsLog.authority {shardCount v : UInt32} {log : List Bytes}
    {replica : Replica} (follows : FollowsLog shardCount v log replica) :
    replica.registry.authority =
      ((Intent.after shardCount v log replica.position).vshards,
        (Intent.after shardCount v log
          replica.position).draining.toList) := by
  rw [← follows.intent]
  rfl

theorem FollowsLog.vshards {shardCount v : UInt32} {log : List Bytes}
    {replica : Replica} (follows : FollowsLog shardCount v log replica) :
    replica.registry.vshards =
      (Intent.after shardCount v log replica.position).vshards := by
  rw [← follows.intent]
  rfl

/-- A reassignment that passes validation on some replica moves its entry at its
place in the log, on every replica. -/
theorem reassign_takes_effect {shardCount v : UInt32} {log : List Bytes}
    {payload : Bytes} {vshard group : UInt32}
    {proposer before after : Replica}
    (isReassign : decodeCommand payload =
      some (.reassignVShard vshard group))
    (proposed : FollowsLog shardCount v log proposer)
    (valid : proposer.registry.validateReassign vshard group = .ok ())
    (committed : log[before.position]? = some payload)
    (next : after.position = before.position + 1)
    (followsBefore : FollowsLog shardCount v log before)
    (followsAfter : FollowsLog shardCount v log after) :
    after.registry.vshards =
        before.registry.vshards.set vshard.toNat group ∧
      after.registry.vshards[vshard.toNat]? = some group := by
  rw [Registry.validateReassign_eq_ok_iff, proposed.configured,
    proposed.vshards, Intent.length_after] at valid
  have inside : vshard.toNat <
      (Intent.after shardCount v log before.position).vshards.length := by
    rw [Intent.length_after]
    exact valid.1
  have moved : after.registry.vshards =
      before.registry.vshards.set vshard.toNat group := by
    rw [followsAfter.vshards, next, Intent.after_succ shardCount v committed,
      followsBefore.vshards, Intent.afterPayload, isReassign,
      Option.elim_some, Intent.perform, if_pos ⟨inside, valid.2⟩]
  refine ⟨moved, ?_⟩
  rw [moved, followsBefore.vshards, List.getElem?_set_self inside]

/-! ## Runs of a replica -/

/-- A step of a replica of the group: a view call is one that builds up the
view, and a snapshot is one that some replica took at that position. -/
def ReplicaStep.Valid (shardCount v : UInt32) (log : List Bytes) :
    ReplicaStep → Prop
  | view op => op.IsView
  | restore bytes position =>
      ∃ taken, Reached shardCount v log ⟨taken, position⟩ ∧
        bytes = ControlApp.snapshotBytes taken ∧ bytes.length < 2 ^ 64
  | _ => True

theorem Reached.step {shardCount v : UInt32} {timeout : Nat}
    {log : List Bytes} {fresh : Registry} {replica : Replica}
    (isNew : newCoordinator shardCount v timeout = some fresh)
    (reached : Reached shardCount v log replica) {next : ReplicaStep}
    (valid : next.Valid shardCount v log) :
    Reached shardCount v log (replica.step fresh log next) := by
  cases next with
  | view op =>
      exact .view reached valid
  | applyNext =>
      cases committed : log[replica.position]? with
      | none =>
          simp only [Replica.step, committed]
          exact reached
      | some payload =>
          simp only [Replica.step, committed]
          exact .applied reached committed
  | restore bytes position =>
      obtain ⟨taken, atCut, rfl, short⟩ := valid
      exact @Reached.restored shardCount v log replica ⟨taken, position⟩
        reached atCut short
  | restart =>
      exact .created isNew

private theorem reached_final {shardCount v : UInt32} {timeout : Nat}
    {log : List Bytes} {fresh : Registry}
    (isNew : newCoordinator shardCount v timeout = some fresh)
    {run : List ReplicaStep}
    (valid : ∀ next ∈ run, next.Valid shardCount v log) :
    Reached shardCount v log
      (final (Replica.step fresh log) ⟨fresh, 0⟩ run) := by
  have preserved : ∀ (current : Replica) (next : ReplicaStep),
      Reached shardCount v log current → next.Valid shardCount v log →
        Reached shardCount v log (current.step fresh log next) :=
    fun _ _ reached validStep => reached.step isNew validStep
  exact final_of_eachStep preserved (.created isNew)
    (eachStep_of_forall_mem (fun next member _ => valid next member))

/-! ## The intent depends on the log alone -/

/-- Two replicas at the same position have the same intent, however each got
there: the table has its full length and names groups of the cluster, and every
reassignment that passed validation has taken effect at its place in the
log. -/
theorem authority_depends_on_log_alone (shardCount v : UInt32)
    (log : List Bytes) (left right : Replica)
    (leftReached : Reached shardCount v log left)
    (rightReached : Reached shardCount v log right)
    (samePosition : left.position = right.position) :
    left.registry.authority = right.registry.authority ∧
      left.registry.vshards.length = v.toNat ∧
      (∀ group ∈ left.registry.vshards, group < shardCount) ∧
      ∀ proposer before after payload vshard group,
        Reached shardCount v log proposer →
        Reached shardCount v log before → Reached shardCount v log after →
        after.position = before.position + 1 →
        log[before.position]? = some payload →
        decodeCommand payload = some (.reassignVShard vshard group) →
        proposer.registry.validateReassign vshard group = .ok () →
          after.registry.vshards =
              before.registry.vshards.set vshard.toNat group ∧
            after.registry.vshards[vshard.toNat]? = some group := by
  have leftFollows := followsLog_of_reached leftReached
  have rightFollows := followsLog_of_reached rightReached
  refine ⟨?_, ?_, ?_, ?_⟩
  · rw [leftFollows.authority, rightFollows.authority, samePosition]
  · rw [leftFollows.vshards, Intent.length_after]
  · rw [leftFollows.vshards]
    exact Intent.lt_of_mem_after leftFollows.populated log _
  · intro proposer before after payload vshard group proposerReached
      beforeReached afterReached next committed isReassign valid
    exact reassign_takes_effect isReassign
      (followsLog_of_reached proposerReached) valid committed next
      (followsLog_of_reached beforeReached)
      (followsLog_of_reached afterReached)

/-! ### Two coordinators -/

namespace TwoCoordinators

/-- Two groups and four virtual shards. -/
def fresh : Registry :=
  (newCoordinator 2 4 15000).getD (.new 2)

/-- Two virtual shards move. -/
def log : List Bytes :=
  [commandLayout.write (.reassignVShard 2 1),
    commandLayout.write (.reassignVShard 0 1)]

/-- A node registers, and the entries are applied. -/
def appliesAll : List ReplicaStep :=
  [.applyNext,
    .view (.registerAt
      { nodeId := "n1", address := "http://n1", shardId := 0,
        role := .follower } 7),
    .applyNext]

def applied : Replica :=
  final (Replica.step fresh log) ⟨fresh, 0⟩ appliesAll

/-- The snapshot of the first replica is installed at once. -/
def restores : List ReplicaStep :=
  [.restore (ControlApp.snapshotBytes applied.registry) applied.position]

def restored : Replica :=
  final (Replica.step fresh log) ⟨fresh, 0⟩ restores

theorem fresh_isNew : newCoordinator 2 4 15000 = some fresh :=
  rfl

theorem reached_applied : Reached 2 4 log applied := by
  apply reached_final fresh_isNew
  simp [appliesAll, ReplicaStep.Valid, RegistryOp.IsView]

private theorem restores_valid : ∀ next ∈ restores, next.Valid 2 4 log := by
  intro next member
  rw [restores, List.mem_singleton] at member
  subst member
  refine ⟨applied.registry, reached_applied, rfl, ?_⟩
  decide +kernel

private theorem reached_restored : Reached 2 4 log restored :=
  reached_final fresh_isNew restores_valid

theorem authority_depends_on_log_alone_twoCoordinators :
    applied.registry.authority = restored.registry.authority ∧
      applied.registry.vshards = [1, 1, 1, 1] := by
  refine ⟨?_, by decide +kernel⟩
  exact (authority_depends_on_log_alone 2 4 log applied restored
    reached_applied reached_restored rfl).1

end TwoCoordinators

/-! ## The placement version -/

/-- A reassignment inside the table and the cluster. -/
def Command.reassigns (shardCount v : UInt32) : Command → Bool
  | reassignVShard vshard group => vshard < v && group < shardCount
  | drainNode _ => false

/-- How many of the first `position` entries reassign a virtual shard. -/
def reassignments (shardCount v : UInt32) (log : List Bytes)
    (position : Nat) : Nat :=
  (log.take position).countP
    (fun payload => (decodeCommand payload).any (Command.reassigns shardCount v))

/-- The version does not go down, and an entry that changes the table changes
it. -/
def VersionMoves (fresh : Registry) (log : List Bytes) (replica : Replica)
    (next : ReplicaStep) : Prop :=
  replica.registry.placementVersion ≤
      (replica.step fresh log next).registry.placementVersion ∧
    (next = .applyNext →
      (replica.step fresh log next).registry.vshards ≠
        replica.registry.vshards →
      (replica.step fresh log next).registry.placementVersion ≠
        replica.registry.placementVersion)

/-- A snapshot restored jumps over exactly one reassignment, and a replica that
restarts has seen none. -/
def CountsOnce (shardCount v : UInt32) (log : List Bytes)
    (replica : Replica) : ReplicaStep → Prop
  | .restore _ position =>
      reassignments shardCount v log position =
        reassignments shardCount v log replica.position + 1
  | .restart => reassignments shardCount v log replica.position = 0
  | _ => True

section Versions

variable {shardCount v : UInt32} {log : List Bytes} {timeout : Nat}
variable {fresh : Registry} {replica : Replica}

private theorem reassignments_succ {position : Nat} {payload : Bytes}
    (committed : log[position]? = some payload) :
    reassignments shardCount v log (position + 1) =
      reassignments shardCount v log position +
        if (decodeCommand payload).any (Command.reassigns shardCount v) = true
        then 1 else 0 := by
  rw [reassignments, List.take_add_one, committed, List.countP_append,
    Option.toList_some, List.countP_singleton]
  rfl

/-- An entry counts in the version exactly if it is a reassignment, and only
then does it change the table. -/
theorem placementVersion_apply (follows : FollowsLog shardCount v log replica)
    (payload : Bytes) :
    if (decodeCommand payload).any (Command.reassigns shardCount v) = true then
      (ControlApp.apply replica.registry payload).1.placementVersion =
        replica.registry.placementVersion + 1
    else
      (ControlApp.apply replica.registry payload).1.placementVersion =
          replica.registry.placementVersion ∧
        (ControlApp.apply replica.registry payload).1.vshards =
          replica.registry.vshards := by
  cases decoded : decodeCommand payload with
  | none =>
      simp [ControlApp.apply, decoded]
  | some command =>
      cases command with
      | drainNode nodeId =>
          simp [ControlApp.apply, decoded, Command.reassigns,
            Registry.applyDrainMarker]
      | reassignVShard vshard group =>
          have verdict :=
            replica.registry.validateReassign_eq_ok_iff vshard group
          rw [follows.configured, follows.vshards, Intent.length_after,
            ← UInt32.lt_iff_toNat_lt] at verdict
          simp only [ControlApp.apply, decoded, Option.any_some,
            Command.reassigns, Bool.and_eq_true, decide_eq_true_eq,
            Registry.reassignVshard]
          cases checked :
              replica.registry.validateReassign vshard group with
          | error message =>
              rw [checked] at verdict
              rw [if_neg (fun inside => nomatch verdict.mpr inside)]
              exact ⟨rfl, rfl⟩
          | ok =>
              rw [checked] at verdict
              rw [if_pos (verdict.mp rfl)]

/-- The version is the number of reassignments up to the replica's position, as
it is on a replica that applies every entry. -/
def CountsReassignments (shardCount v : UInt32) (log : List Bytes)
    (replica : Replica) : Prop :=
  replica.registry.placementVersion =
    reassignments shardCount v log replica.position

/-- From a replica whose version counts the reassignments, a step leads to
another and moves the version as it should exactly if it counts once. -/
theorem countsReassignments_step_iff
    (isNew : newCoordinator shardCount v timeout = some fresh)
    (reached : Reached shardCount v log replica)
    (counts : CountsReassignments shardCount v log replica)
    {next : ReplicaStep} (valid : next.Valid shardCount v log) :
    CountsReassignments shardCount v log (replica.step fresh log next) ∧
        VersionMoves fresh log replica next ↔
      CountsOnce shardCount v log replica next := by
  have follows := followsLog_of_reached reached
  rw [CountsReassignments] at counts ⊢
  cases next with
  | view op =>
      have kept := RegistryOp.keepsIntent_step follows.replicated valid
      refine iff_of_true ⟨?_, ?_, nofun⟩ trivial
      · exact kept.placementVersion.trans counts
      · exact kept.placementVersion.ge
  | applyNext =>
      refine iff_of_true ?_ trivial
      cases committed : log[replica.position]? with
      | none =>
          simp only [VersionMoves, Replica.step, committed]
          exact ⟨counts, le_rfl, fun _ changed => absurd rfl changed⟩
      | some payload =>
          have version := placementVersion_apply follows payload
          simp only [VersionMoves, Replica.step, committed,
            reassignments_succ committed]
          by_cases moves : (decodeCommand payload).any
              (Command.reassigns shardCount v) = true
          · rw [if_pos moves] at version
            rw [if_pos moves, version, counts]
            exact ⟨rfl, Nat.le_succ _, fun _ _ => Nat.succ_ne_self _⟩
          · rw [if_neg moves] at version
            rw [if_neg moves, version.1, counts]
            exact ⟨rfl, le_rfl, fun _ changed => absurd version.2 changed⟩
  | restore bytes position =>
      have version :
          (replica.step fresh log
            (.restore bytes position)).registry.placementVersion =
            replica.registry.placementVersion + 1 := rfl
      rw [VersionMoves, version, counts, CountsOnce]
      constructor
      · intro counts
        rcases counts with ⟨jumped, -⟩
        exact jumped.symm
      · intro jumped
        exact ⟨jumped.symm, Nat.le_succ _, nofun⟩
  | restart =>
      have version :
          (replica.step fresh log .restart).registry.placementVersion = 0 :=
        (newCoordinator_spec isNew log).2
      rw [VersionMoves, version, counts, CountsOnce, Nat.le_zero]
      constructor
      · intro counts
        rcases counts with ⟨-, none, -⟩
        exact none
      · intro none
        exact ⟨rfl, none, nofun⟩

private theorem countsReassignments_newCoordinator
    (isNew : newCoordinator shardCount v timeout = some fresh)
    (log : List Bytes) :
    CountsReassignments shardCount v log ⟨fresh, 0⟩ := by
  exact (newCoordinator_spec isNew log).2

/-- The version counts the reassignments throughout a run and moves as it should
at every step exactly if every step counts once. -/
theorem countsReassignments_throughout_iff
    (isNew : newCoordinator shardCount v timeout = some fresh)
    (reached : Reached shardCount v log replica)
    (counts : CountsReassignments shardCount v log replica)
    (run : List ReplicaStep)
    (valid : ∀ next ∈ run, next.Valid shardCount v log) :
    Throughout (Replica.step fresh log)
          (CountsReassignments shardCount v log) replica run ∧
        EachStep (Replica.step fresh log) (VersionMoves fresh log) replica
          run ↔
      EachStep (Replica.step fresh log) (CountsOnce shardCount v log) replica
        run := by
  refine throughout_and_eachStep_iff ?_ ?_ reached valid counts
  · intro current next currentReached validNext
    exact currentReached.step isNew validNext
  · intro current next currentReached validNext currentCounts
    exact countsReassignments_step_iff isNew currentReached currentCounts
      validNext

/-- In runs whose steps all count once, two replicas at the same position have
the same version, and on each the version never goes down and changes with every
entry that changes the table. -/
theorem placementVersion_identifies_table (shardCount v : UInt32)
    (log : List Bytes) (leftTimeout rightTimeout : Nat)
    (leftFresh rightFresh : Registry)
    (leftNew : newCoordinator shardCount v leftTimeout = some leftFresh)
    (rightNew : newCoordinator shardCount v rightTimeout = some rightFresh)
    (leftRun rightRun : List ReplicaStep)
    (leftValid : ∀ next ∈ leftRun, next.Valid shardCount v log)
    (rightValid : ∀ next ∈ rightRun, next.Valid shardCount v log)
    (leftCounts : EachStep (Replica.step leftFresh log)
      (CountsOnce shardCount v log) ⟨leftFresh, 0⟩ leftRun)
    (rightCounts : EachStep (Replica.step rightFresh log)
      (CountsOnce shardCount v log) ⟨rightFresh, 0⟩ rightRun) :
    ((final (Replica.step leftFresh log) ⟨leftFresh, 0⟩ leftRun).position =
        (final (Replica.step rightFresh log) ⟨rightFresh, 0⟩
          rightRun).position →
      (final (Replica.step leftFresh log) ⟨leftFresh, 0⟩
          leftRun).registry.placementVersion =
        (final (Replica.step rightFresh log) ⟨rightFresh, 0⟩
          rightRun).registry.placementVersion) ∧
    EachStep (Replica.step leftFresh log) (VersionMoves leftFresh log)
      ⟨leftFresh, 0⟩ leftRun ∧
    EachStep (Replica.step rightFresh log) (VersionMoves rightFresh log)
      ⟨rightFresh, 0⟩ rightRun := by
  obtain ⟨leftAlways, leftMoves⟩ :=
    (countsReassignments_throughout_iff leftNew (.created leftNew)
      (countsReassignments_newCoordinator leftNew log) leftRun
      leftValid).mpr leftCounts
  obtain ⟨rightAlways, rightMoves⟩ :=
    (countsReassignments_throughout_iff rightNew (.created rightNew)
      (countsReassignments_newCoordinator rightNew log) rightRun
      rightValid).mpr rightCounts
  refine ⟨?_, leftMoves, rightMoves⟩
  intro samePosition
  have left := final_of_throughout leftAlways
  have right := final_of_throughout rightAlways
  rw [CountsReassignments] at left right
  rw [left, right, samePosition]

end Versions

namespace TwoCoordinators

/-- The snapshot is installed after the first entry has been applied. -/
def appliesThenRestores : List ReplicaStep :=
  .applyNext :: restores

theorem placementVersion_identifies_table_twoCoordinators :
    (final (Replica.step fresh log) ⟨fresh, 0⟩
        appliesAll).registry.placementVersion =
      (final (Replica.step fresh log) ⟨fresh, 0⟩
        appliesThenRestores).registry.placementVersion := by
  have appliesValid : ∀ next ∈ appliesAll, next.Valid 2 4 log := by
    simp [appliesAll, ReplicaStep.Valid, RegistryOp.IsView]
  have restoresValid : ∀ next ∈ appliesThenRestores,
      next.Valid 2 4 log := by
    intro next member
    rcases List.mem_cons.mp member with rfl | later
    · trivial
    · exact restores_valid next later
  refine (placementVersion_identifies_table 2 4 log 15000 15000 fresh fresh
    fresh_isNew fresh_isNew appliesAll appliesThenRestores appliesValid
    restoresValid ?_ ?_).1 rfl
  · exact ⟨trivial, trivial, trivial, trivial⟩
  · refine ⟨trivial, ?_, trivial⟩
    rw [CountsOnce]
    decide +kernel

/-- A replica that restores the whole table counts one where the other counts
two, and a restart takes the version back. -/
theorem restored_version_differs :
    Reached 2 4 log applied ∧ Reached 2 4 log restored ∧
      applied.position = restored.position ∧
      applied.registry.vshards = restored.registry.vshards ∧
      applied.registry.placementVersion = 2 ∧
      restored.registry.placementVersion = 1 ∧
      ¬ VersionMoves fresh log applied .restart := by
  refine ⟨reached_applied, reached_restored, rfl, by decide +kernel,
    by decide +kernel, by decide +kernel, ?_⟩
  intro moving
  rcases moving with ⟨moves, -⟩
  exact absurd moves (by decide +kernel)

end TwoCoordinators

end AetherEngine.Coordinator
