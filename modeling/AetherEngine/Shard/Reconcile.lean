import AetherEngine.Common.Hashing
import AetherEngine.Foundations.Runs
import Mathlib.Data.Finset.Card
import Std.Data.ExtTreeMap
import Std.Data.ExtTreeSet

/-!
# The membership reconciler

The leader of a raft group compares the coordinator's member list with the
group's membership and issues membership changes: drained members leave,
registered newcomers become learners and learners become voters.  All changes
of a tick are decided on the membership read at its start.

Removing voters is guarded by a floor of three, but the guard counts the voters
of the start of the tick.  The floor holds through a run exactly when at every
tick there are at most three voters or at least three that are not draining.
-/

namespace AetherEngine.Shard

open AetherEngine.Common
open AetherEngine.Runs

/-! ## Membership -/

/-- What the coordinator says about a member. -/
structure NodeState where
  nodeId : String
  address : String
  draining : Bool
deriving DecidableEq, Repr

/-- The voters of a raft group and the addresses of all of its members.  Every
voter is a member; the other members are learners. -/
structure Group where
  voters : Finset UInt64
  nodes : Std.ExtTreeMap UInt64 String
  voters_known : ∀ id ∈ voters, id ∈ nodes

/-- The membership changes the reconciler asks for, one id each. -/
inductive Call where
  | removeVoters (id : UInt64)
  | removeNodes (id : UInt64)
  | addLearner (id : UInt64) (address : String)
  | addVoterIds (id : UInt64)
deriving DecidableEq, Repr

namespace Group

/-- A removed voter does not stay on as a learner. -/
def removeVoters (group : Group) (id : UInt64) : Group where
  voters := group.voters.erase id
  nodes := group.nodes.erase id
  voters_known := by
    intro other member
    have distinct := (Finset.mem_erase.mp member).1
    rw [Std.ExtTreeMap.mem_erase, ne_eq,
      Std.LawfulEqCmp.compare_eq_iff_eq]
    exact ⟨fun same => distinct same.symm,
      group.voters_known other (Finset.mem_erase.mp member).2⟩

/-- Only a learner can be removed this way. -/
def removeNodes (group : Group) (id : UInt64) : Group :=
  if voter : id ∈ group.voters then
    group
  else
    { voters := group.voters
      nodes := group.nodes.erase id
      voters_known := by
        intro other member
        rw [Std.ExtTreeMap.mem_erase, ne_eq,
          Std.LawfulEqCmp.compare_eq_iff_eq]
        refine ⟨?_, group.voters_known other member⟩
        intro equality
        subst equality
        exact voter member }

def addLearner (group : Group) (id : UInt64) (address : String) :
    Group where
  voters := group.voters
  nodes := group.nodes.insertIfNew id address
  voters_known := by
    intro other member
    rw [Std.ExtTreeMap.mem_insertIfNew]
    exact Or.inr (group.voters_known other member)

/-- Only a member can be promoted. -/
def addVoterIds (group : Group) (id : UInt64) : Group :=
  if known : id ∈ group.nodes then
    { voters := insert id group.voters
      nodes := group.nodes
      voters_known := by
        intro other member
        rcases Finset.mem_insert.mp member with rfl | old
        · exact known
        · exact group.voters_known other old }
  else
    group

def perform (group : Group) : Call → Group
  | .removeVoters id => group.removeVoters id
  | .removeNodes id => group.removeNodes id
  | .addLearner id address => group.addLearner id address
  | .addVoterIds id => group.addVoterIds id

end Group

/-! ## One tick -/

/-- The raft ids of the draining members. -/
def drainingIds (members : List NodeState) : Std.ExtTreeSet UInt64 :=
  .ofList ((members.filter fun member => member.draining).map fun member =>
    raftNodeId member.nodeId)

/-- The raft ids and addresses of the other members. -/
def desiredNodes (members : List NodeState) :
    Std.ExtTreeMap UInt64 String :=
  .ofList ((members.filter fun member => !member.draining).map fun member =>
    (raftNodeId member.nodeId, member.address))

/-- The change asked for a draining member. -/
def removalCall (group : Group) (id : UInt64) : Option Call :=
  if id ∉ group.nodes then
    none
  else if id ∈ group.voters then
    -- The voters counted here are those of the start of the tick.
    if group.voters.card ≤ 3 then none else some (.removeVoters id)
  else
    some (.removeNodes id)

/-- The change asked for a registered member. -/
def admissionCall (group : Group) (id : UInt64) (address : String) :
    Option Call :=
  if id ∉ group.nodes then
    some (.addLearner id address)
  else if id ∉ group.voters then
    some (.addVoterIds id)
  else
    none

def removalCalls (group : Group) (ids : List UInt64) : List Call :=
  ids.filterMap fun id => removalCall group id

def admissionCalls (group : Group) (nodes : List (UInt64 × String)) :
    List Call :=
  nodes.filterMap fun node => admissionCall group node.1 node.2

/-- All changes of one tick, in the order they are issued. -/
def tickCalls (group : Group) (members : List NodeState) : List Call :=
  removalCalls group (drainingIds members).toList ++
    admissionCalls group (desiredNodes members).toList

/-- A tick acts only on the leader, and only when a coordinator answered. -/
structure Tick where
  leads : Bool
  answer : Option (List NodeState)

def Tick.members (tick : Tick) : List NodeState :=
  if tick.leads then tick.answer.getD [] else []

/-- The group after a tick whose changes all took effect. -/
def runTick (group : Group) (tick : Tick) : Group :=
  final Group.perform group (tickCalls group tick.members)

/-! ## What a run should keep -/

/-- The group can lose one voter and still have a majority. -/
def FloorHeld (group : Group) : Prop :=
  3 ≤ group.voters.card

/-- Some draining member has this raft id. -/
def Draining (members : List NodeState) (id : UInt64) : Prop :=
  ∃ member ∈ members,
    member.draining = true ∧ raftNodeId member.nodeId = id

/-- Some registered member that is not draining has this raft id. -/
def Registered (members : List NodeState) (id : UInt64) : Prop :=
  ∃ member ∈ members,
    member.draining = false ∧ raftNodeId member.nodeId = id

/-- A change removes only draining members and promotes only registered
learners that are not draining. -/
structure Honest (members : List NodeState) (before after : Group) :
    Prop where
  removed : ∀ id, (id ∈ before.voters ∧ id ∉ after.voters) ∨
      (id ∈ before.nodes ∧ id ∉ after.nodes) →
    Draining members id
  promoted : ∀ id, id ∉ before.voters → id ∈ after.voters →
    Registered members id ∧ ¬ Draining members id ∧ id ∈ before.nodes

/-- Every change of a list of changes, each in the group it is performed on,
is honest. -/
def AllHonest (members : List NodeState) (group : Group)
    (calls : List Call) : Prop :=
  EachStep Group.perform
    (fun before call => Honest members before (before.perform call))
    group calls

/-- The floor holds after every change of every tick, and every change is
honest. -/
def ReconcilesSafely : Group → List Tick → Prop
  | group, [] => FloorHeld group
  | group, tick :: rest =>
      Throughout Group.perform FloorHeld group
          (tickCalls group tick.members) ∧
        AllHonest tick.members group (tickCalls group tick.members) ∧
        ReconcilesSafely (runTick group tick) rest

/-- The voters a tick can afford: at most three, of which none is removed, or
at least three that are not draining. -/
def DrainFits (group : Group) (tick : Tick) : Prop :=
  group.voters.card ≤ 3 ∨
    3 ≤ (group.voters.filter fun id =>
      id ∉ drainingIds tick.members).card

instance (group : Group) (tick : Tick) :
    Decidable (DrainFits group tick) :=
  inferInstanceAs (Decidable (_ ∨ _))

/-! ## Member lists -/

theorem mem_drainingIds {members : List NodeState} {id : UInt64} :
    id ∈ drainingIds members ↔ Draining members id := by
  simp only [drainingIds, Std.ExtTreeSet.mem_ofList, List.contains_iff_mem,
    List.mem_map, List.mem_filter, Draining, and_assoc]

theorem registered_of_mem_desiredNodes {members : List NodeState}
    {id : UInt64} {address : String}
    (listed : (id, address) ∈ (desiredNodes members).toList) :
    Registered members id := by
  have known : id ∈ desiredNodes members := by
    rw [Std.ExtTreeMap.mem_toList_iff_getElem?_eq_some] at listed
    exact Std.ExtTreeMap.mem_iff_isSome_getElem?.mpr (by simp [listed])
  simp only [desiredNodes, Std.ExtTreeMap.mem_ofList,
    List.contains_iff_mem, List.map_map, List.mem_map, List.mem_filter,
    Function.comp_apply] at known
  obtain ⟨member, ⟨inside, active⟩, same⟩ := known
  exact ⟨member, inside, by simpa using active, same⟩

/-! ## The calls of a tick -/

/-- Everything a removal can ask for, with the reasons it has. -/
theorem mem_removalCalls {group : Group} {ids : List UInt64} {call : Call}
    (issued : call ∈ removalCalls group ids) :
    ∃ id ∈ ids,
      (call = .removeVoters id ∧ id ∈ group.voters ∧
          3 < group.voters.card) ∨
        (call = .removeNodes id ∧ id ∈ group.nodes ∧
          id ∉ group.voters) := by
  obtain ⟨id, listed, asked⟩ := List.mem_filterMap.mp issued
  refine ⟨id, listed, ?_⟩
  unfold removalCall at asked
  by_cases known : id ∈ group.nodes
  · by_cases voter : id ∈ group.voters
    · by_cases few : group.voters.card ≤ 3
      · simp [known, voter, few] at asked
      · simp only [known, voter, few, not_true_eq_false, if_true,
          if_false, Option.some.injEq] at asked
        exact Or.inl ⟨asked.symm, voter, by omega⟩
    · simp only [known, voter, not_true_eq_false, if_false,
        Option.some.injEq] at asked
      exact Or.inr ⟨asked.symm, known, voter⟩
  · simp [known] at asked

/-- Everything an admission can ask for, with the reasons it has. -/
theorem mem_admissionCalls {group : Group}
    {nodes : List (UInt64 × String)} {call : Call}
    (issued : call ∈ admissionCalls group nodes) :
    ∃ id address, (id, address) ∈ nodes ∧
      ((call = .addLearner id address ∧ id ∉ group.nodes) ∨
        (call = .addVoterIds id ∧ id ∈ group.nodes ∧
          id ∉ group.voters)) := by
  obtain ⟨⟨id, address⟩, listed, asked⟩ := List.mem_filterMap.mp issued
  refine ⟨id, address, listed, ?_⟩
  unfold admissionCall at asked
  by_cases known : id ∈ group.nodes
  · by_cases voter : id ∈ group.voters
    · simp [known, voter] at asked
    · simp only [known, voter, not_true_eq_false, not_false_eq_true,
        if_true, if_false, Option.some.injEq] at asked
      exact Or.inr ⟨asked.symm, known, voter⟩
  · simp only [known, not_false_eq_true, if_true,
      Option.some.injEq] at asked
    exact Or.inl ⟨asked.symm, known⟩

theorem removalCalls_cons_some {group : Group} {first : UInt64}
    {call : Call} (asked : removalCall group first = some call)
    (rest : List UInt64) :
    removalCalls group (first :: rest) = call :: removalCalls group rest :=
  List.filterMap_cons_some asked

private theorem removalCalls_cons_none {group : Group} {first : UInt64}
    (asked : removalCall group first = none) (rest : List UInt64) :
    removalCalls group (first :: rest) = removalCalls group rest :=
  List.filterMap_cons_none asked

/-- A tick removes voters only when it found more than three, and only
draining ones. -/
theorem removeVoters_mem_tickCalls {group : Group}
    {members : List NodeState} {id : UInt64}
    (issued : .removeVoters id ∈ tickCalls group members) :
    id ∈ drainingIds members ∧ 3 < group.voters.card := by
  rcases List.mem_append.mp issued with removal | admission
  · obtain ⟨other, listed, ⟨same, _, many⟩ | ⟨impossible, _⟩⟩ :=
      mem_removalCalls removal
    · cases same
      exact ⟨Std.ExtTreeSet.mem_toList.mp listed, many⟩
    · cases impossible
  · obtain ⟨_, _, _, ⟨impossible, _⟩ | ⟨impossible, _⟩⟩ :=
      mem_admissionCalls admission
    · cases impossible
    · cases impossible

/-! ## The floor -/

section Floor

variable {group : Group} {members : List NodeState}

theorem voters_removeNodes (group : Group) (id : UInt64) :
    (group.removeNodes id).voters = group.voters := by
  unfold Group.removeNodes
  by_cases voter : id ∈ group.voters
  · rw [dif_pos voter]
  · rw [dif_neg voter]

private theorem voters_subset_addVoterIds (group : Group) (id : UInt64) :
    group.voters ⊆ (group.addVoterIds id).voters := by
  unfold Group.addVoterIds
  by_cases known : id ∈ group.nodes
  · rw [dif_pos known]
    exact Finset.subset_insert id group.voters
  · rw [dif_neg known]

/-- Voters that no call of the tick removes stay voters through it. -/
theorem throughout_voters_kept {kept : Finset UInt64}
    (inside : kept ⊆ group.voters)
    (spared : ∀ id, .removeVoters id ∈ tickCalls group members →
      id ∉ kept) :
    Throughout Group.perform (fun current => kept ⊆ current.voters) group
      (tickCalls group members) := by
  have harmless : EachStep Group.perform
      (fun _ call => ∀ id, call = .removeVoters id → id ∉ kept) group
      (tickCalls group members) := by
    apply eachStep_of_forall_mem
    intro call issued _ id equality
    subst equality
    exact spared id issued
  refine throughout_of_eachStep ?_ inside harmless
  intro current call held harmlessCall
  cases call with
  | removeVoters id =>
      intro other member
      refine Finset.mem_erase.mpr ⟨?_, held member⟩
      intro equality
      subst equality
      exact harmlessCall _ rfl member
  | removeNodes id =>
      show kept ⊆ (current.removeNodes id).voters
      rw [voters_removeNodes]
      exact held
  | addLearner id address =>
      exact held
  | addVoterIds id =>
      exact held.trans (voters_subset_addVoterIds current id)

/-- After the removals of a tick with more than three voters, exactly the
voters that are not draining are left. -/
theorem voters_after_removals (many : 3 < group.voters.card)
    (ids : List UInt64) (current : Group) :
    (final Group.perform current (removalCalls group ids)).voters =
      current.voters.filter fun id =>
        ¬ (id ∈ ids ∧ id ∈ group.voters) := by
  induction ids generalizing current with
  | nil =>
      simp [removalCalls]
  | cons first rest inductionHypothesis =>
      have notFew : ¬ group.voters.card ≤ 3 := by omega
      by_cases voter : first ∈ group.voters
      · have known : first ∈ group.nodes := group.voters_known first voter
        have asked : removalCall group first =
            some (.removeVoters first) := by
          simp [removalCall, known, voter, notFew]
        rw [removalCalls_cons_some asked, final_cons, inductionHypothesis]
        ext id
        simp only [Group.perform, Group.removeVoters, Finset.mem_filter,
          Finset.mem_erase, List.mem_cons]
        constructor
        · intro holding
          rcases holding with ⟨⟨different, held⟩, stays⟩
          refine ⟨held, ?_⟩
          intro voting
          rcases voting with ⟨same | later, isVoter⟩
          · exact different same
          · exact stays ⟨later, isVoter⟩
        · intro holding
          rcases holding with ⟨held, stays⟩
          refine ⟨⟨?_, held⟩, fun later =>
            stays ⟨Or.inr later.1, later.2⟩⟩
          intro equality
          subst equality
          exact stays ⟨Or.inl rfl, voter⟩
      · have unaffected : ∀ id : UInt64,
            (id ∈ first :: rest ∧ id ∈ group.voters) ↔
              (id ∈ rest ∧ id ∈ group.voters) := by
          intro id
          rw [List.mem_cons]
          constructor
          · intro voting
            rcases voting with ⟨same | later, isVoter⟩
            · exact absurd (same ▸ isVoter) voter
            · exact ⟨later, isVoter⟩
          · intro voting
            rcases voting with ⟨later, isVoter⟩
            exact ⟨Or.inr later, isVoter⟩
        simp only [unaffected]
        by_cases known : first ∈ group.nodes
        · have asked : removalCall group first =
              some (.removeNodes first) := by
            simp [removalCall, known, voter]
          rw [removalCalls_cons_some asked, final_cons,
            inductionHypothesis]
          show (current.removeNodes first).voters.filter _ = _
          rw [voters_removeNodes]
        · have asked : removalCall group first = none := by
            simp [removalCall, known]
          rw [removalCalls_cons_none asked, inductionHypothesis]

/-- Through one tick the floor holds exactly when the tick can afford its
drains. -/
theorem throughout_floor_iff (tick : Tick) (floor : FloorHeld group) :
    Throughout Group.perform FloorHeld group
        (tickCalls group tick.members) ↔
      DrainFits group tick := by
  constructor
  · intro held
    by_cases few : group.voters.card ≤ 3
    · exact Or.inl few
    · right
      have afterRemovals :=
        final_of_throughout ((throughout_append _ _).mp held).1
      unfold FloorHeld at afterRemovals
      rw [voters_after_removals (by omega)] at afterRemovals
      refine afterRemovals.trans (Finset.card_le_card ?_)
      intro id member
      rw [Finset.mem_filter] at member ⊢
      refine ⟨member.1, fun drains => member.2 ⟨?_, member.1⟩⟩
      exact Std.ExtTreeSet.mem_toList.mpr drains
  · intro size
    rcases size with few | enough
    · have kept : Throughout Group.perform
          (fun current => group.voters ⊆ current.voters) group
          (tickCalls group tick.members) := by
        apply throughout_voters_kept (Finset.Subset.refl _)
        intro id issued
        have many := (removeVoters_mem_tickCalls issued).2
        omega
      exact throughout_mono
        (fun current held => floor.trans (Finset.card_le_card held)) kept
    · have kept : Throughout Group.perform
          (fun current => (group.voters.filter fun id =>
            id ∉ drainingIds tick.members) ⊆ current.voters) group
          (tickCalls group tick.members) := by
        apply throughout_voters_kept (Finset.filter_subset _ _)
        intro id issued survives
        exact (Finset.mem_filter.mp survives).2
          (removeVoters_mem_tickCalls issued).1
      exact throughout_mono
        (fun current held => enough.trans (Finset.card_le_card held)) kept

end Floor

/-! ## Honesty -/

section Honesty

variable {group : Group} {members : List NodeState}

theorem mem_nodes_removeVoters {current : Group} {id other : UInt64} :
    other ∈ (current.removeVoters id).nodes ↔
      other ≠ id ∧ other ∈ current.nodes := by
  unfold Group.removeVoters
  rw [Std.ExtTreeMap.mem_erase, ne_eq, Std.LawfulEqCmp.compare_eq_iff_eq,
    eq_comm]

theorem mem_nodes_removeNodes {current : Group} {id other : UInt64}
    (learner : id ∉ current.voters) :
    other ∈ (current.removeNodes id).nodes ↔
      other ≠ id ∧ other ∈ current.nodes := by
  unfold Group.removeNodes
  rw [dif_neg learner, Std.ExtTreeMap.mem_erase, ne_eq,
    Std.LawfulEqCmp.compare_eq_iff_eq, eq_comm]

/-- Nothing but the named id leaves or joins. -/
theorem honest_removeVoters {current : Group} {id : UInt64}
    (drains : Draining members id) :
    Honest members current (current.removeVoters id) where
  removed := by
    intro other holding
    rcases holding with ⟨held, gone⟩ | ⟨held, gone⟩
    · by_cases same : other = id
      · rw [same]
        exact drains
      · exact absurd (Finset.mem_erase.mpr ⟨same, held⟩) gone
    · by_cases same : other = id
      · rw [same]
        exact drains
      · exact absurd (mem_nodes_removeVoters.mpr ⟨same, held⟩) gone
  promoted := by
    intro other absent present
    exact absurd (Finset.mem_erase.mp present).2 absent

private theorem honest_removeNodes {current : Group} {id : UInt64}
    (drains : Draining members id) :
    Honest members current (current.removeNodes id) where
  removed := by
    intro other holding
    rcases holding with ⟨held, gone⟩ | ⟨held, gone⟩
    · rw [voters_removeNodes] at gone
      exact absurd held gone
    · by_cases learner : id ∈ current.voters
      · rw [Group.removeNodes, dif_pos learner] at gone
        exact absurd held gone
      · by_cases same : other = id
        · rw [same]
          exact drains
        · exact absurd ((mem_nodes_removeNodes learner).mpr ⟨same, held⟩)
            gone
  promoted := by
    intro other absent present
    rw [voters_removeNodes] at present
    exact absurd present absent

private theorem honest_addLearner (current : Group) (id : UInt64)
    (address : String) :
    Honest members current (current.addLearner id address) where
  removed := by
    intro other holding
    rcases holding with ⟨held, gone⟩ | ⟨held, gone⟩
    · exact absurd held gone
    · refine absurd ?_ gone
      exact Std.ExtTreeMap.mem_insertIfNew.mpr (Or.inr held)
  promoted := by
    intro other absent present
    exact absurd present absent

private theorem honest_addVoterIds {current : Group} {id : UInt64}
    (registered : Registered members id)
    (active : id ∈ current.nodes → ¬ Draining members id) :
    Honest members current (current.addVoterIds id) := by
  by_cases known : id ∈ current.nodes
  · rw [Group.addVoterIds, dif_pos known]
    refine ⟨?_, ?_⟩
    · intro other holding
      rcases holding with ⟨held, gone⟩ | ⟨held, gone⟩
      · exact absurd (Finset.mem_insert_of_mem held) gone
      · exact absurd held gone
    · intro other absent present
      rcases Finset.mem_insert.mp present with rfl | held
      · exact ⟨registered, active known, known⟩
      · exact absurd held absent
  · rw [Group.addVoterIds, dif_neg known]
    refine ⟨?_, ?_⟩
    · intro other holding
      rcases holding with ⟨held, gone⟩ | ⟨held, gone⟩
      · exact absurd held gone
      · exact absurd held gone
    · intro other absent present
      exact absurd present absent

/-- The learners of the start of the tick that drain are gone. -/
def DrainedGone (group : Group) (ids : List UInt64) (current : Group) :
    Prop :=
  ∀ id ∈ ids, id ∈ group.nodes → id ∉ group.voters → id ∉ current.nodes

/-- Members are taken away and none is added. -/
structure Shrinks (before after : Group) : Prop where
  voters : after.voters ⊆ before.voters
  nodes : ∀ id, id ∈ after.nodes → id ∈ before.nodes

private theorem shrinks_removals (group : Group) (ids : List UInt64)
    (current : Group) :
    Shrinks current
      (final Group.perform current (removalCalls group ids)) := by
  have onlyRemovals : EachStep Group.perform
      (fun _ call => ∃ id, call = .removeVoters id ∨ call = .removeNodes id)
      current (removalCalls group ids) := by
    apply eachStep_of_forall_mem
    intro call issued _
    obtain ⟨id, _, ⟨asked, _⟩ | ⟨asked, _⟩⟩ := mem_removalCalls issued
    · exact ⟨id, Or.inl asked⟩
    · exact ⟨id, Or.inr asked⟩
  refine final_of_eachStep ?_
    ⟨Finset.Subset.refl _, fun _ held => held⟩ onlyRemovals
  intro reached call shrunk known
  rcases known with ⟨id, rfl | rfl⟩
  · refine ⟨(Finset.erase_subset _ _).trans shrunk.voters, ?_⟩
    intro other held
    exact shrunk.nodes other (mem_nodes_removeVoters.mp held).2
  · refine ⟨?_, ?_⟩
    · show (reached.removeNodes id).voters ⊆ current.voters
      rw [voters_removeNodes]
      exact shrunk.voters
    · intro other held
      by_cases voter : id ∈ reached.voters
      · change other ∈ (reached.removeNodes id).nodes at held
        rw [Group.removeNodes, dif_pos voter] at held
        exact shrunk.nodes other held
      · exact shrunk.nodes other ((mem_nodes_removeNodes voter).mp held).2

/-- After its removals a tick has removed every draining learner. -/
theorem drainedGone_after_removals (ids : List UInt64) {current : Group}
    (voters : current.voters ⊆ group.voters) :
    DrainedGone group ids
      (final Group.perform current (removalCalls group ids)) := by
  induction ids generalizing current with
  | nil =>
      intro id member
      cases member
  | cons first rest inductionHypothesis =>
      have shrunkOne := shrinks_removals group [first] current
      have joined : removalCalls group (first :: rest) =
          removalCalls group [first] ++ removalCalls group rest := by
        unfold removalCalls
        rw [← List.filterMap_append]
        rfl
      rw [joined, final_append]
      intro id member known learner
      rcases List.mem_cons.mp member with rfl | later
      · have asked : removalCall group id = some (.removeNodes id) := by
          simp [removalCall, known, learner]
        have notVoter : id ∉ current.voters :=
          fun held => learner (voters held)
        intro present
        have stillThere := (shrinks_removals group rest _).nodes id present
        rw [removalCalls_cons_some asked] at stillThere
        exact ((mem_nodes_removeNodes notVoter).mp stillThere).1 rfl
      · exact inductionHypothesis (shrunkOne.voters.trans voters) id later
          known learner

/-- An admission keeps the drained learners away and is honest. -/
theorem DrainedGone.admission {current : Group} {call : Call}
    (gone : DrainedGone group (drainingIds members).toList current)
    (issued : call ∈
      admissionCalls group (desiredNodes members).toList) :
    Honest members current (current.perform call) ∧
      DrainedGone group (drainingIds members).toList
        (current.perform call) := by
  obtain ⟨id, address, listed, ⟨rfl, unknown⟩ | ⟨rfl, known, learner⟩⟩ :=
    mem_admissionCalls issued
  · refine ⟨honest_addLearner current id address, ?_⟩
    intro other drains otherKnown otherLearner present
    rcases Std.ExtTreeMap.mem_insertIfNew.mp present with same | held
    · rw [Std.LawfulEqCmp.compare_eq_iff_eq] at same
      subst same
      exact unknown otherKnown
    · exact gone other drains otherKnown otherLearner held
  · refine ⟨honest_addVoterIds (registered_of_mem_desiredNodes listed) ?_,
      ?_⟩
    · intro present draining
      have drains := Std.ExtTreeSet.mem_toList.mpr
        (mem_drainingIds.mpr draining)
      exact gone id drains known learner present
    · intro other drains otherKnown otherLearner present
      refine gone other drains otherKnown otherLearner ?_
      change other ∈ (current.addVoterIds id).nodes at present
      unfold Group.addVoterIds at present
      split at present
      · exact present
      · exact present

/-- Every change a tick issues is honest. -/
theorem allHonest_tickCalls (group : Group) (members : List NodeState) :
    AllHonest members group (tickCalls group members) := by
  unfold AllHonest tickCalls
  rw [eachStep_append]
  constructor
  · apply eachStep_of_forall_mem
    intro call issued current
    obtain ⟨id, listed, ⟨rfl, _⟩ | ⟨rfl, _⟩⟩ := mem_removalCalls issued
    · exact honest_removeVoters
        (mem_drainingIds.mp (Std.ExtTreeSet.mem_toList.mp listed))
    · exact honest_removeNodes
        (mem_drainingIds.mp (Std.ExtTreeSet.mem_toList.mp listed))
  · exact eachStep_of_invariant
      (fun _ _ gone issued => gone.admission issued)
      (drainedGone_after_removals (drainingIds members).toList
        (Finset.Subset.refl group.voters))
      fun _ issued => issued

end Honesty

/-! ## Runs of ticks -/

/-- A run of ticks keeps three voters after every change, removing only
draining members and promoting only registered learners, exactly when every
tick finds at most three voters or leaves three that are not draining. -/
theorem reconcilesSafely_iff
    {group : Group} (floor : FloorHeld group) (ticks : List Tick) :
    ReconcilesSafely group ticks ↔
      EachStep runTick DrainFits group ticks := by
  induction ticks generalizing group with
  | nil =>
      exact ⟨fun _ => trivial, fun _ => floor⟩
  | cons tick rest inductionHypothesis =>
      have exactly := throughout_floor_iff tick floor
      constructor
      · intro holding
        rcases holding with ⟨held, _, later⟩
        have reached : FloorHeld (runTick group tick) :=
          final_of_throughout held
        exact ⟨exactly.mp held, (inductionHypothesis reached).mp later⟩
      · intro guarded
        rcases guarded with ⟨fits, later⟩
        have held := exactly.mpr fits
        have reached : FloorHeld (runTick group tick) :=
          final_of_throughout held
        exact ⟨held, allHonest_tickCalls group tick.members,
          (inductionHypothesis reached).mpr later⟩

/-- The group whose members all vote. -/
def votersOnly (names : List String) : Group where
  voters := (names.map raftNodeId).toFinset
  nodes := .ofList (names.map fun name => (raftNodeId name, name))
  voters_known := by
    intro id member
    rw [Std.ExtTreeMap.mem_ofList, List.contains_iff_mem, List.map_map]
    exact List.mem_toFinset.mp member

/-- A tick on the leader that lists the named members, some of them
draining. -/
def tickOf (names : List String) (drained : List String) : Tick where
  leads := true
  answer := some (names.map fun name => ⟨name, name, drained.contains name⟩)

/-- Five voters of which two drain; a newcomer is admitted at the second tick
and promoted at the third. -/
theorem reconcilesSafely_drainTwo :
    FloorHeld (votersOnly ["a", "b", "c", "d", "e"]) ∧
      ReconcilesSafely (votersOnly ["a", "b", "c", "d", "e"])
        [tickOf ["a", "b", "c", "d", "e"] ["a", "b"],
          tickOf ["c", "d", "e", "f"] [],
          tickOf ["c", "d", "e", "f"] []] := by
  have floor : FloorHeld (votersOnly ["a", "b", "c", "d", "e"]) := by
    unfold FloorHeld
    decide +kernel
  refine ⟨floor, (reconcilesSafely_iff floor _).mpr ⟨?_, ?_, ?_, trivial⟩⟩
  · decide +kernel
  · decide +kernel
  · decide +kernel

/-- Five voters of which three drain at once: two are left. -/
theorem drainThree_breaks_floor :
    FloorHeld (votersOnly ["a", "b", "c", "d", "e"]) ∧
      ¬ ReconcilesSafely (votersOnly ["a", "b", "c", "d", "e"])
        [tickOf ["a", "b", "c", "d", "e"] ["a", "b", "c"]] := by
  have floor : FloorHeld (votersOnly ["a", "b", "c", "d", "e"]) := by
    unfold FloorHeld
    decide +kernel
  refine ⟨floor, ?_⟩
  intro holding
  rcases holding with ⟨held, _⟩
  have fits := (throughout_floor_iff _ floor).mp held
  exact absurd fits (by decide +kernel)

end AetherEngine.Shard
