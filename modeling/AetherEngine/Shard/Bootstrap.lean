import AetherEngine.Common.Hashing
import AetherEngine.Coordinator.RegistryNodes

/-!
# Forming a raft group

The members of a shard register with the coordinator and poll its member list
until the list has `groupSize` entries.  The member with the smallest raft id of
the list it sees then initializes the group.

Two members that see the same list agree on who initializes.  But the list
changes between polls, and it is counted by entries: a member that the
coordinator promoted and that registers again after a restart has two.
-/

namespace AetherEngine.Shard

open AetherEngine.Common
open AetherEngine.Coordinator
open AetherEngine.Runs

/-! ## A member's task -/

/-- Raft ids and transport addresses. -/
def memberMap (members : List NodeSnapshot) : Std.ExtTreeMap UInt64 String :=
  .ofList (members.map
    (fun member => (raftNodeId member.nodeId, member.address)))

/-- What a poll of the member list gives: the member map, once enough entries
are listed. -/
def waitForGroup (groupSize : Nat) (members : List NodeSnapshot) :
    Option (Std.ExtTreeMap UInt64 String) :=
  if groupSize ≤ members.length then
    some (memberMap members)
  else
    none

/-- The member map a member initializes the group with: it does so if it holds
the smallest raft id. -/
def bootstrapGroup (myRaftId : UInt64)
    (members : Std.ExtTreeMap UInt64 String) :
    Option (Std.ExtTreeMap UInt64 String) :=
  if members.keys.min? = some myRaftId then
    some members
  else
    none

/-! ## The members of one shard -/

/-- A call to initialize the group. -/
structure Initialization where
  caller : String
  members : Std.ExtTreeMap UInt64 String

/-- The coordinator's registry, the members whose task still polls, and the
calls to initialize the group so far. -/
structure Formation where
  registry : Registry
  waiting : Std.ExtTreeSet String
  initialized : List Initialization

inductive FormationStep where
  /-- Any call on the registry. -/
  | registry (op : RegistryOp)
  /-- A process starts or restarts; a joining member never bootstraps. -/
  | start (nodeId : String) (joining : Bool)
  /-- The member's task polls the member list. -/
  | poll (passes : RegistryPasses) (nodeId : String) (now : Nat)

namespace Formation

/-- The members not yet started. -/
def initial (registry : Registry) : Formation where
  registry := registry
  waiting := ∅
  initialized := []

/-- A poll that finds the list long enough ends the task. -/
def poll (shard : UInt32) (groupSize : Nat) (formation : Formation)
    (passes : RegistryPasses) (nodeId : String) (now : Nat) : Formation :=
  match waitForGroup groupSize
      (formation.registry.membersOf passes shard now) with
  | none => formation
  | some members =>
      { formation with
        waiting := formation.waiting.erase nodeId
        initialized := formation.initialized ++
          (bootstrapGroup (raftNodeId nodeId) members).toList.map
            (Initialization.mk nodeId) }

def step (shard : UInt32) (groupSize : Nat) (formation : Formation) :
    FormationStep → Formation
  | .registry op => { formation with registry := op.step formation.registry }
  | .start nodeId joining =>
      { formation with
        waiting :=
          if joining then
            formation.waiting.erase nodeId
          else
            formation.waiting.insert nodeId }
  | .poll passes nodeId now =>
      if nodeId ∈ formation.waiting then
        formation.poll shard groupSize passes nodeId now
      else
        formation

/-- One member at most has called for the group to be initialized, and every
member map has the full size. -/
structure BootstrappedOnce (groupSize : Nat) (formation : Formation) :
    Prop where
  once : ∀ first ∈ formation.initialized, ∀ second ∈ formation.initialized,
    first.caller = second.caller
  full : ∀ call ∈ formation.initialized, groupSize ≤ call.members.size

/-- The members a poll finds listed, by entry. -/
def listed (shard : UInt32) (formation : Formation)
    (passes : RegistryPasses) (now : Nat) : List String :=
  (formation.registry.membersOf passes shard now).map NodeSnapshot.nodeId

/-- A poll that finds the list long enough finds no member listed twice, and it
finds every member that has initialized the group still listed and with a raft
id no larger than the poller's. -/
def PollsWholeGroup (shard : UInt32) (groupSize : Nat)
    (formation : Formation) : FormationStep → Prop
  | .poll passes nodeId now =>
      nodeId ∈ formation.waiting →
      groupSize ≤ (formation.listed shard passes now).length →
        (formation.listed shard passes now).Nodup ∧
          ∀ call ∈ formation.initialized,
            call.caller ∈ formation.listed shard passes now ∧
              raftNodeId call.caller ≤ raftNodeId nodeId
  | _ => True

end Formation

/-- The step is one of these members' or of the coordinator's own. -/
def FormationStep.Concerns (members : Set String) : FormationStep → Prop
  | registry (.registerAt request _) => request.nodeId ∈ members
  | registry _ => True
  | start nodeId _ => nodeId ∈ members
  | poll _ nodeId _ => nodeId ∈ members

/-! ## The member map of a poll -/

private theorem mem_memberMap {members : List NodeSnapshot} {id : UInt64} :
    id ∈ memberMap members ↔
      ∃ name ∈ members.map NodeSnapshot.nodeId, raftNodeId name = id := by
  simp [memberMap]

/-- Members with different raft ids that are listed once each have one entry
each. -/
theorem size_memberMap {members : List NodeSnapshot}
    (once : (members.map NodeSnapshot.nodeId).Nodup)
    (distinct : Set.InjOn raftNodeId
      {name | name ∈ members.map NodeSnapshot.nodeId}) :
    (memberMap members).size = members.length := by
  have ids :
      ((members.map NodeSnapshot.nodeId).map raftNodeId).Nodup := by
    exact List.Nodup.map_on
      (fun first isFirst second isSecond same =>
        distinct isFirst isSecond same) once
  have apart :
      (members.map (fun member =>
        (raftNodeId member.nodeId, member.address))).Pairwise
          (fun first second => ¬ compare first.1 second.1 = .eq) := by
    rw [List.pairwise_map]
    rw [List.Nodup, List.map_map, List.pairwise_map] at ids
    exact ids.imp (fun different same =>
      different (Std.LawfulEqCmp.compare_eq_iff_eq.mp same))
  rw [memberMap, Std.ExtTreeMap.size_ofList apart, List.length_map]

private theorem bootstrapGroup_spec {id : UInt64}
    {members given : Std.ExtTreeMap UInt64 String}
    (chosen : bootstrapGroup id members = some given) :
    given = members ∧ ∀ other ∈ members, id ≤ other := by
  rw [bootstrapGroup, Option.ite_none_right_eq_some] at chosen
  obtain ⟨smallest, same⟩ := chosen
  refine ⟨(Option.some.inj same).symm, ?_⟩
  intro other member
  exact (List.min?_eq_some_iff.mp smallest).2 other
    (Std.ExtTreeMap.mem_keys.mpr member)

/-! ## Runs -/

namespace Formation

/-- A poll adds at most one call, by the poller, with the map of the list it
found and only if its raft id is the smallest there. -/
theorem mem_initialized_poll {shard : UInt32} {groupSize : Nat}
    {formation : Formation} {passes : RegistryPasses} {nodeId : String}
    {now : Nat} {call : Initialization}
    (called : call ∈
      (formation.poll shard groupSize passes nodeId now).initialized) :
    call ∈ formation.initialized ∨
      groupSize ≤ (formation.listed shard passes now).length ∧
        call = ⟨nodeId,
          memberMap (formation.registry.membersOf passes shard now)⟩ ∧
        ∀ name ∈ formation.listed shard passes now,
          raftNodeId nodeId ≤ raftNodeId name := by
  by_cases long :
      groupSize ≤ (formation.registry.membersOf passes shard now).length
  · simp only [poll, waitForGroup, if_pos long, List.mem_append,
      List.mem_map, Option.mem_toList] at called
    rcases called with before | ⟨members, chosen, rfl⟩
    · exact Or.inl before
    · obtain ⟨rfl, smallest⟩ := bootstrapGroup_spec chosen
      refine Or.inr ⟨?_, rfl, ?_⟩
      · rw [listed, List.length_map]
        exact long
      · intro name present
        exact smallest _ (mem_memberMap.mpr ⟨name, present, rfl⟩)
  · simp only [poll, waitForGroup, if_neg long] at called
    exact Or.inl called

private theorem registry_poll (shard : UInt32) (groupSize : Nat)
    (formation : Formation) (passes : RegistryPasses) (nodeId : String)
    (now : Nat) :
    (formation.poll shard groupSize passes nodeId now).registry =
      formation.registry := by
  unfold poll
  split <;> rfl

private theorem mem_nodeIds_of_listed {shard : UInt32} {formation : Formation}
    {passes : RegistryPasses} {now : Nat} {name : String}
    (present : name ∈ formation.listed shard passes now) :
    name ∈ formation.registry.nodeIds := by
  rw [← (Registry.nodeIds_snapshot passes formation.registry now).mem_iff]
  exact List.map_subset _ (List.filter_subset_self _) present

/-- What a run of these members keeps: only they are listed, and only they call
for the group to be initialized. -/
structure OfMembers (members : Set String) (formation : Formation) :
    Prop where
  known : ∀ name ∈ formation.registry.nodeIds, name ∈ members
  callers : ∀ call ∈ formation.initialized, call.caller ∈ members

theorem OfMembers.step {members : Set String} {formation : Formation}
    (inside : formation.OfMembers members) (shard : UInt32)
    (groupSize : Nat) {next : FormationStep}
    (concerns : next.Concerns members) :
    (formation.step shard groupSize next).OfMembers members := by
  cases next with
  | registry op =>
      refine ⟨?_, inside.callers⟩
      intro name after
      rcases RegistryOp.mem_nodeIds_step after with
        before | ⟨request, now, rfl, rfl⟩
      · exact inside.known name before
      · exact concerns
  | start nodeId joining =>
      exact ⟨inside.known, inside.callers⟩
  | poll passes nodeId now =>
      by_cases waits : nodeId ∈ formation.waiting
      · simp only [Formation.step, if_pos waits]
        refine ⟨?_, ?_⟩
        · rw [registry_poll]
          exact inside.known
        · intro call called
          rcases mem_initialized_poll called with before | ⟨-, rfl, -⟩
          · exact inside.callers call before
          · exact concerns
      · simp only [Formation.step, if_neg waits]
        exact inside

/-- A poll of the whole group keeps it bootstrapped once. -/
theorem BootstrappedOnce.step {members : Set String} {formation : Formation}
    {shard : UInt32} {groupSize : Nat} {next : FormationStep}
    (distinct : Set.InjOn raftNodeId members)
    (concerns : next.Concerns members)
    (inside : formation.OfMembers members)
    (good : formation.BootstrappedOnce groupSize)
    (whole : formation.PollsWholeGroup shard groupSize next) :
    (formation.step shard groupSize next).BootstrappedOnce groupSize := by
  cases next with
  | registry op =>
      exact ⟨good.once, good.full⟩
  | start nodeId joining =>
      exact ⟨good.once, good.full⟩
  | poll passes nodeId now =>
      by_cases waits : nodeId ∈ formation.waiting
      · simp only [Formation.step, if_pos waits]
        have same : ∀ call ∈ (formation.poll shard groupSize passes nodeId
            now).initialized, ∀ before ∈ formation.initialized,
              call.caller = before.caller := by
          intro call called before earlier
          rcases mem_initialized_poll called with
            old | ⟨long, rfl, smallest⟩
          · exact good.once call old before earlier
          · obtain ⟨present, order⟩ :=
              (whole waits long).2 before earlier
            exact distinct concerns (inside.callers before earlier)
              (UInt64.le_antisymm (smallest _ present) order)
        refine ⟨?_, ?_⟩
        · intro first isFirst second isSecond
          rcases mem_initialized_poll isFirst with
            old | ⟨-, rfl, -⟩
          · exact (same second isSecond first old).symm
          · rcases mem_initialized_poll isSecond with
              old | ⟨-, rfl, -⟩
            · exact same _ isFirst second old
            · rfl
        · intro call called
          rcases mem_initialized_poll called with old | ⟨long, rfl, -⟩
          · exact good.full call old
          · rw [size_memberMap (whole waits long).1]
            · rw [listed, List.length_map] at long
              exact long
            · exact distinct.mono
                (fun name present =>
                  inside.known name (mem_nodeIds_of_listed present))
      · simp only [Formation.step, if_neg waits]
        exact good

private theorem ofMembers_initial (members : Set String) (shardCount : UInt32)
    (livenessTimeout : Nat) (vshards : List UInt32) (replicated : Bool) :
    (initial (RegistryOp.unpopulated shardCount livenessTimeout vshards
      replicated)).OfMembers members where
  known := by
    intro name present
    exact absurd present List.not_mem_nil
  callers := by
    intro call called
    exact absurd called List.not_mem_nil

private theorem bootstrappedOnce_initial (groupSize : Nat)
    (registry : Registry) :
    (initial registry).BootstrappedOnce groupSize where
  once := by
    intro first called
    exact absurd called List.not_mem_nil
  full := by
    intro call called
    exact absurd called List.not_mem_nil

/-- In a run whose polls all find the whole group, one member at most calls for
the group to be initialized, and with the full member map. -/
theorem bootstrappedOnce_throughout (shard : UInt32) (groupSize : Nat)
    (members : Set String) (distinct : Set.InjOn raftNodeId members)
    (shardCount : UInt32) (livenessTimeout : Nat) (vshards : List UInt32)
    (replicated : Bool) (run : List FormationStep)
    (concerns : ∀ next ∈ run, next.Concerns members)
    (whole : EachStep (step shard groupSize)
      (PollsWholeGroup shard groupSize)
      (.initial (RegistryOp.unpopulated shardCount livenessTimeout vshards
        replicated)) run) :
    Throughout (step shard groupSize) (BootstrappedOnce groupSize)
      (.initial (RegistryOp.unpopulated shardCount livenessTimeout vshards
        replicated)) run := by
  have preserved : ∀ (current : Formation) next,
      current.OfMembers members ∧ current.BootstrappedOnce groupSize →
      current.PollsWholeGroup shard groupSize next ∧ next.Concerns members →
        (current.step shard groupSize next).OfMembers members ∧
          (current.step shard groupSize next).BootstrappedOnce groupSize := by
    intro current next before guarded
    rcases before with ⟨inside, good⟩
    rcases guarded with ⟨polls, concerned⟩
    exact ⟨inside.step shard groupSize concerned,
      good.step distinct concerned inside polls⟩
  have both := throughout_of_eachStep preserved
    ⟨ofMembers_initial members _ _ _ _, bootstrappedOnce_initial groupSize _⟩
    (whole.and_of_forall_mem concerns)
  exact throughout_mono (fun _ both => both.2) both

/-! ## A group of exactly the members it waits for -/

/-- A member that registers is not listed in another place. -/
def RegistersInPlace (formation : Formation) : FormationStep → Prop
  | .registry op => op.RegistersInPlace formation.registry
  | _ => True

/-- Every member is listed once, and a member that has called for the group to
be initialized has the smallest raft id of all. -/
structure LedBySmallest (members : Finset String) (formation : Formation) :
    Prop where
  inside : formation.OfMembers members
  unique : formation.registry.nodeIds.Nodup
  smallest : ∀ call ∈ formation.initialized, ∀ name ∈ members,
    raftNodeId call.caller ≤ raftNodeId name

namespace LedBySmallest

variable {members : Finset String} {formation : Formation}
variable {shard : UInt32} {groupSize : Nat} {passes : RegistryPasses}
variable {now : Nat}

private theorem nodup_listed (led : formation.LedBySmallest members)
    (shard : UInt32) (passes : RegistryPasses) (now : Nat) :
    (formation.listed shard passes now).Nodup :=
  ((Registry.listedOnce_iff formation.registry).mpr led.unique).grouped
    passes shard now

/-- A list of `groupSize` entries has every member. -/
theorem mem_listed_iff (led : formation.LedBySmallest members)
    (few : members.card ≤ groupSize)
    (long : groupSize ≤ (formation.listed shard passes now).length)
    {name : String} :
    name ∈ formation.listed shard passes now ↔ name ∈ members := by
  have inside : (formation.listed shard passes now).toFinset ⊆ members := by
    intro name present
    exact led.inside.known name
      (mem_nodeIds_of_listed (List.mem_toFinset.mp present))
  have everyone : (formation.listed shard passes now).toFinset = members := by
    apply Finset.eq_of_subset_of_card_le inside
    rw [List.toFinset_card_of_nodup (led.nodup_listed shard passes now)]
    exact few.trans long
  rw [← List.mem_toFinset, everyone]

theorem pollsWholeGroup (led : formation.LedBySmallest members)
    (few : members.card ≤ groupSize) {next : FormationStep}
    (concerns : next.Concerns members) :
    formation.PollsWholeGroup shard groupSize next := by
  cases next with
  | registry op => trivial
  | start nodeId joining => trivial
  | poll passes nodeId now =>
      intro _ long
      refine ⟨led.nodup_listed shard passes now, ?_⟩
      intro call called
      exact ⟨(led.mem_listed_iff few long).mpr
          (led.inside.callers call called),
        led.smallest call called nodeId concerns⟩

theorem step (led : formation.LedBySmallest members)
    (few : members.card ≤ groupSize) {next : FormationStep}
    (concerns : next.Concerns members)
    (inPlace : formation.RegistersInPlace next) :
    (formation.step shard groupSize next).LedBySmallest members := by
  have inside := led.inside.step shard groupSize concerns
  cases next with
  | registry op =>
      exact ⟨inside, (RegistryOp.nodup_step_iff led.unique op).mpr inPlace,
        led.smallest⟩
  | start nodeId joining =>
      exact ⟨inside, led.unique, led.smallest⟩
  | poll passes nodeId now =>
      by_cases waits : nodeId ∈ formation.waiting
      · simp only [Formation.step, if_pos waits] at inside ⊢
        refine ⟨inside, ?_, ?_⟩
        · rw [registry_poll]
          exact led.unique
        · intro call called name member
          rcases mem_initialized_poll called with
            before | ⟨long, rfl, smallest⟩
          · exact led.smallest call before name member
          · exact smallest name ((led.mem_listed_iff few long).mpr member)
      · simp only [Formation.step, if_neg waits]
        exact led

end LedBySmallest

/-- A group of no more members than it waits for polls the whole group, as long
as no member registers while it is listed as the leader. -/
theorem pollsWholeGroup_of_registersInPlace (shard : UInt32)
    (groupSize : Nat) (members : Finset String)
    (few : members.card ≤ groupSize) (shardCount : UInt32)
    (livenessTimeout : Nat) (vshards : List UInt32) (replicated : Bool)
    (run : List FormationStep)
    (concerns : ∀ next ∈ run, next.Concerns members)
    (inPlace : EachStep (step shard groupSize) RegistersInPlace
      (.initial (RegistryOp.unpopulated shardCount livenessTimeout vshards
        replicated)) run) :
    EachStep (step shard groupSize) (PollsWholeGroup shard groupSize)
      (.initial (RegistryOp.unpopulated shardCount livenessTimeout vshards
        replicated)) run := by
  have kept : ∀ (current : Formation) next,
      current.LedBySmallest members →
      current.RegistersInPlace next ∧ next.Concerns members →
        current.PollsWholeGroup shard groupSize next ∧
          (current.step shard groupSize next).LedBySmallest members := by
    intro current next led guarded
    rcases guarded with ⟨placed, concerned⟩
    exact ⟨led.pollsWholeGroup few concerned, led.step few concerned placed⟩
  refine EachStep.imp_of_invariant kept ⟨?_, ?_, ?_⟩
    (inPlace.and_of_forall_mem concerns)
  · exact ofMembers_initial _ _ _ _ _
  · exact List.nodup_nil
  · intro call called
    exact absurd called List.not_mem_nil

/-! ## Two runs of a group of two -/

def entryOrder : RegistryPasses :=
  ⟨.asStored, .asStored⟩

/-- A member registers for shard zero, as every member of a raft group does. -/
def registration (name : String) (now : Nat) : FormationStep :=
  .registry (.registerAt
    { nodeId := name
      address := "http://" ++ name
      shardId := 0
      role := .follower } now)

def pairStart : Formation :=
  .initial (RegistryOp.unpopulated 1 15000 [] false)

/-- Both members register, then both poll. -/
def pairForms : List FormationStep :=
  [.start "n1" false, registration "n1" 0, .start "n2" false,
    registration "n2" 1, .poll entryOrder "n2" 2, .poll entryOrder "n1" 3]

theorem bootstrappedOnce_throughout_pairForms :
    Throughout (step 0 2) (BootstrappedOnce 2) pairStart pairForms ∧
      (final (step 0 2) pairStart pairForms).initialized.map
        (fun call => (call.caller, call.members.size)) = [("n1", 2)] := by
  have concerns : ∀ next ∈ pairForms,
      next.Concerns (({"n1", "n2"} : Finset String) : Set String) := by
    simp [pairForms, registration, FormationStep.Concerns]
  have inPlace :
      EachStep (step 0 2) RegistersInPlace pairStart pairForms := by
    refine ⟨trivial, ?_, trivial, ?_, trivial, trivial, trivial⟩
    · intro _
      decide +kernel
    · intro _
      decide +kernel
  refine ⟨?_, by decide +kernel⟩
  apply bootstrappedOnce_throughout 0 2 _ _ 1 15000 [] false pairForms concerns
  · exact pollsWholeGroup_of_registersInPlace 0 2 {"n1", "n2"} (by decide) 1
      15000 [] false pairForms concerns inPlace
  · rw [Finset.coe_insert, Finset.coe_singleton, Set.injOn_insert]
    · rw [Set.image_singleton, Set.mem_singleton_iff]
      exact ⟨Set.injOn_singleton _ _, by decide +kernel⟩
    · simp

/-- A member registers, is promoted in the map, and registers again after a
restart; only then does the second member come up. -/
def restartedAlone : List FormationStep :=
  [.start "n2" false, registration "n2" 0,
    .registry (.promoteOrphanedShards entryOrder), .start "n2" false,
    registration "n2" 1, .poll entryOrder "n2" 2, .start "n1" false,
    registration "n1" 3, .poll entryOrder "n1" 4]

/-- The restarted member fills the list alone and initializes a group of one;
the second member then initializes a group of two. -/
theorem restartedAlone_bootstraps_twice :
    raftNodeId "n1" ≠ raftNodeId "n2" ∧
      (final (step 0 2) pairStart restartedAlone).initialized.map
          (fun call => (call.caller, call.members.size)) =
        [("n2", 1), ("n1", 2)] ∧
      ¬ Throughout (step 0 2) (BootstrappedOnce 2) pairStart
        restartedAlone := by
  have calls :
      (final (step 0 2) pairStart restartedAlone).initialized.map
          (fun call => (call.caller, call.members.size)) =
        [("n2", 1), ("n1", 2)] := by
    decide +kernel
  refine ⟨by decide +kernel, calls, ?_⟩
  intro always
  have full := (final_of_throughout always).full
  obtain ⟨call, called, same⟩ := List.mem_map.mp
    (calls ▸ List.mem_cons_self)
  have size := full call called
  rw [(Prod.mk.inj same).2] at size
  exact absurd size (by decide)

end Formation

end AetherEngine.Shard
