import AetherEngine.Foundations.Keyed
import AetherEngine.Foundations.Tables
import AetherEngine.Foundations.Traces
import AetherEngine.Shard.Reconcile

/-!
# The membership reconciler converges

Every member of a raft group runs a reconciler, and the ticks of several may
overlap while leadership moves.  A change may fail or find nothing left to do.
While the coordinator lists the same members, every change brings one listed
member closer to its place: outside the group when it drains, voting otherwise.
-/

namespace AetherEngine.Shard

open AetherEngine.Common
open AetherEngine.Keyed
open AetherEngine.Runs
open AetherEngine.Traces

/-! ## Standing -/

/-- What an id is to a group. -/
inductive Standing where
  | outside
  | learner
  | voter
deriving DecidableEq, Repr

def Group.standing (group : Group) (id : UInt64) : Standing :=
  if id ∈ group.voters then .voter
  else if id ∈ group.nodes then .learner
  else .outside

namespace Call

/-- The id a change is about. -/
def target : Call → UInt64
  | removeVoters id => id
  | removeNodes id => id
  | addLearner id _ => id
  | addVoterIds id => id

/-- What a change makes of the standing of its id. -/
def applied : Call → Standing → Standing
  | removeVoters _, _ => .outside
  | removeNodes _, .learner => .outside
  | addLearner _ _, .outside => .learner
  | addVoterIds _, .learner => .voter
  | _, standing => standing

/-- The change still has something to do. -/
def Effective (group : Group) (call : Call) : Prop :=
  call.applied (group.standing call.target) ≠ group.standing call.target

instance instDecidableEffective (group : Group) (call : Call) :
    Decidable (call.Effective group) :=
  inferInstanceAs (Decidable (_ ≠ _))

end Call

theorem Group.standing_eq_voter_iff {group : Group} {id : UInt64} :
    group.standing id = .voter ↔ id ∈ group.voters := by
  unfold standing
  split
  next votes => simp [votes]
  next votes =>
    split
    · simp [votes]
    · simp [votes]

theorem Group.standing_eq_outside_iff {group : Group} {id : UInt64} :
    group.standing id = .outside ↔ id ∉ group.nodes := by
  unfold standing
  split
  next votes => simp [group.voters_known id votes]
  next votes =>
    split
    next known => simp [known]
    next known => simp [known]

/-- An id's standing is told by its memberships. -/
theorem standing_congr {group other : Group} {id : UInt64}
    (votes : id ∈ other.voters ↔ id ∈ group.voters)
    (known : id ∈ other.nodes ↔ id ∈ group.nodes) :
    other.standing id = group.standing id := by
  simp only [Group.standing, votes, known]

private theorem Group.standing_eq_learner_iff {group : Group} {id : UInt64} :
    group.standing id = .learner ↔ id ∉ group.voters ∧ id ∈ group.nodes := by
  unfold standing
  split
  next votes => simp [votes]
  next votes =>
    split
    next known => simp [votes, known]
    next known => simp [known]

theorem mem_nodes_addLearner {group : Group} {id other : UInt64}
    {address : String} :
    other ∈ (group.addLearner id address).nodes ↔
      other = id ∨ other ∈ group.nodes := by
  rw [Group.addLearner, Std.ExtTreeMap.mem_insertIfNew,
    Std.LawfulEqCmp.compare_eq_iff_eq, eq_comm]

/-- A change leaves the other ids where they are. -/
theorem standing_perform_of_ne {group : Group} {call : Call} {id : UInt64}
    (other : id ≠ call.target) :
    (group.perform call).standing id = group.standing id := by
  cases call with
  | removeVoters removed =>
      apply standing_congr
      · exact Finset.mem_erase.trans (and_iff_right other)
      · exact mem_nodes_removeVoters.trans (and_iff_right other)
  | removeNodes removed =>
      apply standing_congr
      · exact iff_of_eq (congrArg (id ∈ ·) (voters_removeNodes group removed))
      · by_cases votes : removed ∈ group.voters
        · rw [Group.perform, Group.removeNodes, dif_pos votes]
        · exact (mem_nodes_removeNodes votes).trans (and_iff_right other)
  | addLearner added address =>
      apply standing_congr
      · rfl
      · exact mem_nodes_addLearner.trans (or_iff_right other)
  | addVoterIds added =>
      rw [Group.perform, Group.addVoterIds]
      split
      · apply standing_congr
        · exact Finset.mem_insert.trans (or_iff_right other)
        · rfl
      · rfl

/-- A change gives its id the standing it asks for. -/
theorem standing_perform_target (group : Group) (call : Call) :
    (group.perform call).standing call.target =
      call.applied (group.standing call.target) := by
  cases call with
  | removeVoters id =>
      have gone : (group.removeVoters id).standing id = .outside := by
        rw [Group.standing_eq_outside_iff, mem_nodes_removeVoters]
        simp
      exact gone
  | removeNodes id =>
      dsimp only [Group.perform, Call.target]
      cases current : group.standing id with
      | voter =>
          rw [Group.removeNodes,
            dif_pos (Group.standing_eq_voter_iff.mp current), current]
          rfl
      | learner | outside =>
          have learner : id ∉ group.voters := by
            simp [← Group.standing_eq_voter_iff, current]
          have gone : (group.removeNodes id).standing id = .outside := by
            rw [Group.standing_eq_outside_iff, mem_nodes_removeNodes learner]
            simp
          exact gone
  | addLearner id address =>
      dsimp only [Group.perform, Call.target]
      cases current : group.standing id with
      | outside =>
          have notVoter : id ∉ (group.addLearner id address).voters := by
            show id ∉ group.voters
            simp [← Group.standing_eq_voter_iff, current]
          exact Group.standing_eq_learner_iff.mpr
            ⟨notVoter, mem_nodes_addLearner.mpr (.inl rfl)⟩
      | learner | voter =>
          have known : id ∈ group.nodes := by
            have inside : ¬ group.standing id = .outside := by simp [current]
            rw [Group.standing_eq_outside_iff, not_not] at inside
            exact inside
          have unchanged :
              (group.addLearner id address).standing id = group.standing id :=
            standing_congr Iff.rfl
              (mem_nodes_addLearner.trans (by simp [known]))
          rw [unchanged, current]
          rfl
  | addVoterIds id =>
      dsimp only [Group.perform, Call.target]
      rw [Group.addVoterIds]
      split
      next known =>
        have inside : group.standing id ≠ .outside := by
          rw [ne_eq, Group.standing_eq_outside_iff, not_not]
          exact known
        rw [Group.standing_eq_voter_iff.mpr (Finset.mem_insert_self _ _)]
        cases current : group.standing id with
        | outside => exact absurd current inside
        | learner => rfl
        | voter => rfl
      next unknown =>
        rw [Group.standing_eq_outside_iff.mpr unknown]
        rfl

theorem standing_perform :
    ActsByKey Group.perform Call.target Group.standing Call.applied := by
  intro group call id
  split
  next same =>
    rw [same]
    exact standing_perform_target group call
  next other => exact standing_perform_of_ne other

/-! ## What a tick asks for -/

/-- One step closer to voting. -/
def Standing.admitted : Standing → Standing
  | outside => learner
  | _ => voter

theorem removalCall_eq_none_iff {group : Group} {id : UInt64} :
    removalCall group id = none ↔ group.standing id = .outside ∨
      group.standing id = .voter ∧ group.voters.card ≤ 3 := by
  rw [Group.standing_eq_outside_iff, Group.standing_eq_voter_iff, removalCall]
  by_cases known : id ∈ group.nodes
  · by_cases votes : id ∈ group.voters
    · by_cases few : group.voters.card ≤ 3
      · simp [known, votes, few]
      · simp [known, votes, few]
    · simp [known, votes]
  · simp [known]

theorem removalCall_spec {group : Group} {id : UInt64} {call : Call}
    (asked : removalCall group id = some call) :
    call.target = id ∧ group.standing id ≠ .outside ∧
      call.applied (group.standing id) = .outside := by
  have present : group.standing id ≠ .outside := by
    intro outside
    rw [removalCall_eq_none_iff.mpr (.inl outside)] at asked
    cases asked
  unfold removalCall at asked
  split at asked
  · cases asked
  · split at asked
    · split at asked
      · cases asked
      · cases asked
        exact ⟨rfl, present, rfl⟩
    next notVoter =>
      cases asked
      refine ⟨rfl, present, ?_⟩
      rw [← Group.standing_eq_voter_iff] at notVoter
      cases current : group.standing id with
      | outside => exact absurd current present
      | learner => rfl
      | voter => exact absurd current notVoter

theorem admissionCall_eq_none_iff {group : Group} {id : UInt64}
    {address : String} :
    admissionCall group id address = none ↔ group.standing id = .voter := by
  rw [Group.standing_eq_voter_iff, admissionCall]
  by_cases known : id ∈ group.nodes
  · by_cases votes : id ∈ group.voters
    · simp [known, votes]
    · simp [known, votes]
  · have notVoter : id ∉ group.voters :=
      fun votes => known (group.voters_known id votes)
    simp [known, notVoter]

theorem admissionCall_spec {group : Group} {id : UInt64} {address : String}
    {call : Call} (asked : admissionCall group id address = some call) :
    call.target = id ∧ group.standing id ≠ .voter ∧
      call.applied (group.standing id) = (group.standing id).admitted := by
  have lower : group.standing id ≠ .voter := by
    intro votes
    rw [admissionCall_eq_none_iff.mpr votes] at asked
    cases asked
  unfold admissionCall at asked
  split at asked
  next unknown =>
    cases asked
    rw [← Group.standing_eq_outside_iff] at unknown
    rw [unknown]
    exact ⟨rfl, by simp, rfl⟩
  next known =>
    rw [← Group.standing_eq_outside_iff] at known
    split at asked
    · cases asked
      refine ⟨rfl, lower, ?_⟩
      cases current : group.standing id with
      | outside => exact absurd current known
      | learner => rfl
      | voter => exact absurd current lower
    · cases asked

/-- The ids of the changes asked for are among the ids looked at, in their
order. -/
theorem targets_sublist {α : Type} {ask : α → Option Call} {idOf : α → UInt64}
    (about : ∀ item call, ask item = some call → call.target = idOf item)
    (items : List α) :
    ((items.filterMap ask).map Call.target).Sublist (items.map idOf) := by
  induction items with
  | nil =>
      exact List.Sublist.refl _
  | cons item rest inductionHypothesis =>
      cases asked : ask item with
      | none =>
          rw [List.filterMap_cons_none asked, List.map_cons]
          exact inductionHypothesis.cons _
      | some call =>
          rw [List.filterMap_cons_some asked, List.map_cons, List.map_cons,
            about item call asked]
          exact inductionHypothesis.cons_cons _

section Ticks

variable {members : List NodeState}

private theorem registered_iff_mem_desiredNodes {id : UInt64} :
    Registered members id ↔
      ∃ address, (id, address) ∈ (desiredNodes members).toList := by
  constructor
  · rintro ⟨member, inside, active, same⟩
    have known : id ∈ desiredNodes members := by
      simp only [desiredNodes, Std.ExtTreeMap.mem_ofList,
        List.contains_iff_mem, List.map_map, List.mem_map, List.mem_filter,
        Function.comp_apply]
      exact ⟨member, ⟨inside, by simp [active]⟩, same⟩
    obtain ⟨address, found⟩ :=
      Option.isSome_iff_exists.mp (Std.ExtTreeMap.mem_iff_isSome_getElem?.mp known)
    exact ⟨address, Std.ExtTreeMap.mem_toList_iff_getElem?_eq_some.mpr found⟩
  · rintro ⟨address, listed⟩
    exact registered_of_mem_desiredNodes listed

private theorem distinct_targets
    (separate : ∀ id, Registered members id → ¬ Draining members id)
    (group : Group) : ((tickCalls group members).map Call.target).Nodup := by
  have removals : ((removalCalls group (drainingIds members).toList).map
      Call.target).Sublist ((drainingIds members).toList.map id) :=
    targets_sublist (fun _ _ asked => (removalCall_spec asked).1) _
  have admissions : ((admissionCalls group (desiredNodes members).toList).map
      Call.target).Sublist ((desiredNodes members).toList.map Prod.fst) :=
    targets_sublist (fun _ _ asked => (admissionCall_spec asked).1) _
  rw [List.map_id] at removals
  rw [tickCalls, List.map_append, List.nodup_append]
  refine ⟨?_, admissions.nodup (Tables.nodup_keys _), ?_⟩
  · refine removals.nodup (Std.ExtTreeSet.distinct_toList.imp ?_)
    intro first second different
    rwa [Std.LawfulEqCmp.compare_eq_iff_eq] at different
  · intro drained removed registered added same
    subst same
    have draining := mem_drainingIds.mp
      (Std.ExtTreeSet.mem_toList.mp (removals.subset removed))
    obtain ⟨⟨id, address⟩, listed, rfl⟩ :=
      List.mem_map.mp (admissions.subset added)
    exact separate id (registered_of_mem_desiredNodes listed) draining

/-- Every call of a tick removes a draining member or admits a registered
one. -/
theorem mem_tickCalls {group : Group} {call : Call} :
    call ∈ tickCalls group members ↔
      Draining members call.target ∧
          removalCall group call.target = some call ∨
        ∃ address, (call.target, address) ∈ (desiredNodes members).toList ∧
          admissionCall group call.target address = some call := by
  rw [tickCalls, List.mem_append, removalCalls, admissionCalls,
    List.mem_filterMap, List.mem_filterMap]
  apply or_congr
  · constructor
    · rintro ⟨id, listed, asked⟩
      rw [(removalCall_spec asked).1]
      exact ⟨mem_drainingIds.mp (Std.ExtTreeSet.mem_toList.mp listed), asked⟩
    · rintro ⟨draining, asked⟩
      exact ⟨_, Std.ExtTreeSet.mem_toList.mpr (mem_drainingIds.mpr draining),
        asked⟩
  · constructor
    · rintro ⟨⟨id, address⟩, listed, asked⟩
      rw [(admissionCall_spec asked).1]
      exact ⟨address, listed, asked⟩
    · rintro ⟨address, listed, asked⟩
      exact ⟨_, listed, asked⟩

/-- Every call of a tick has something to do when it is asked for. -/
theorem effective_of_mem_tickCalls {group : Group} {call : Call}
    (issued : call ∈ tickCalls group members) : call.Effective group := by
  rcases mem_tickCalls.mp issued with ⟨-, asked⟩ | ⟨address, -, asked⟩
  · obtain ⟨-, present, gone⟩ := removalCall_spec asked
    rw [Call.Effective, gone]
    exact present.symm
  · obtain ⟨-, lower, raised⟩ := admissionCall_spec asked
    rw [Call.Effective, raised]
    cases current : group.standing call.target with
    | outside => simp [Standing.admitted]
    | learner => simp [Standing.admitted]
    | voter => exact absurd current lower

/-- The group after a tick of the leader whose changes all take effect. -/
def afterWholeTick (members : List NodeState) (group : Group) : Group :=
  runTick group { leads := true, answer := some members }

/-- Among distinct ids the calls of a tick act one by one. -/
theorem standing_afterWholeTick
    (separate : ∀ id, Registered members id → ¬ Draining members id)
    {group : Group} {call : Call}
    (issued : call ∈ tickCalls group members) :
    (afterWholeTick members group).standing call.target =
      call.applied (group.standing call.target) :=
  look_final_of_mem standing_perform (distinct_targets separate group) issued
    group

theorem standing_afterWholeTick_of_not_asked {group : Group} {id : UInt64}
    (notAsked : ∀ call ∈ tickCalls group members, call.target ≠ id) :
    (afterWholeTick members group).standing id = group.standing id := by
  refine look_final_of_not_mem standing_perform ?_ group
  intro asked
  obtain ⟨call, issued, same⟩ := List.mem_map.mp asked
  exact notAsked call issued same

/-- A draining member leaves, except a voter of at most three. -/
theorem standing_afterWholeTick_of_draining
    (separate : ∀ id, Registered members id → ¬ Draining members id)
    {group : Group} {id : UInt64}
    (draining : Draining members id) :
    (afterWholeTick members group).standing id =
      if group.standing id = .voter ∧ group.voters.card ≤ 3 then .voter
      else .outside := by
  cases asked : removalCall group id with
  | some call =>
      obtain ⟨rfl, -, gone⟩ := removalCall_spec asked
      have issued := mem_tickCalls.mpr (.inl ⟨draining, asked⟩)
      have busy : ¬ removalCall group call.target = none := by simp [asked]
      rw [removalCall_eq_none_iff, not_or] at busy
      rw [standing_afterWholeTick separate issued, gone, if_neg busy.2]
  | none =>
      have kept : (afterWholeTick members group).standing id =
          group.standing id := by
        apply standing_afterWholeTick_of_not_asked
        rintro call issued rfl
        rcases mem_tickCalls.mp issued with ⟨-, busy⟩ | ⟨address, listed, -⟩
        · rw [asked] at busy
          cases busy
        · exact separate _ (registered_of_mem_desiredNodes listed) draining
      rw [kept]
      rcases removalCall_eq_none_iff.mp asked with outside | stays
      · simp [outside]
      · rw [if_pos stays, stays.1]

/-- A registered member comes one step closer to voting. -/
theorem standing_afterWholeTick_of_registered
    (separate : ∀ id, Registered members id → ¬ Draining members id)
    {group : Group} {id : UInt64}
    (registered : Registered members id) :
    (afterWholeTick members group).standing id =
      (group.standing id).admitted := by
  obtain ⟨address, listed⟩ := registered_iff_mem_desiredNodes.mp registered
  cases asked : admissionCall group id address with
  | some call =>
      obtain ⟨rfl, -, raised⟩ := admissionCall_spec asked
      have issued := mem_tickCalls.mpr (.inr ⟨address, listed, asked⟩)
      rw [standing_afterWholeTick separate issued, raised]
  | none =>
      have votes := admissionCall_eq_none_iff.mp asked
      have kept : (afterWholeTick members group).standing id =
          group.standing id := by
        apply standing_afterWholeTick_of_not_asked
        rintro call issued rfl
        rcases mem_tickCalls.mp issued with ⟨draining, -⟩ | ⟨other, -, busy⟩
        · exact separate _ registered draining
        · exact (admissionCall_spec busy).2.1 votes
      rw [kept, votes]
      rfl

private theorem standing_afterWholeTick_of_unlisted {group : Group}
    {id : UInt64}
    (notDraining : ¬ Draining members id)
    (notRegistered : ¬ Registered members id) :
    (afterWholeTick members group).standing id = group.standing id := by
  apply standing_afterWholeTick_of_not_asked
  rintro call issued rfl
  rcases mem_tickCalls.mp issued with ⟨draining, -⟩ | ⟨address, listed, -⟩
  · exact notDraining draining
  · exact notRegistered (registered_of_mem_desiredNodes listed)

/-! ## Groups at rest -/

/-- Every registered member votes, and no draining member is left unless at most
three vote, itself among them. -/
def AtRest (members : List NodeState) (group : Group) : Prop :=
  (∀ id, Registered members id → group.standing id = .voter) ∧
    ∀ id, Draining members id → group.standing id = .outside ∨
      group.standing id = .voter ∧ group.voters.card ≤ 3

/-- A tick asks for nothing exactly in a settled group. -/
theorem tickCalls_eq_nil_iff {group : Group} :
    tickCalls group members = [] ↔ AtRest members group := by
  rw [List.eq_nil_iff_forall_not_mem]
  constructor
  · intro nothing
    refine ⟨?_, ?_⟩
    · intro id registered
      obtain ⟨address, listed⟩ := registered_iff_mem_desiredNodes.mp registered
      rw [← @admissionCall_eq_none_iff group id address,
        Option.eq_none_iff_forall_ne_some]
      intro call asked
      obtain ⟨rfl, -⟩ := admissionCall_spec asked
      exact nothing call (mem_tickCalls.mpr (.inr ⟨address, listed, asked⟩))
    · intro id draining
      rw [← removalCall_eq_none_iff, Option.eq_none_iff_forall_ne_some]
      intro call asked
      obtain ⟨rfl, -⟩ := removalCall_spec asked
      exact nothing call (mem_tickCalls.mpr (.inl ⟨draining, asked⟩))
  · rintro ⟨voting, leaving⟩ call issued
    rcases mem_tickCalls.mp issued with ⟨draining, asked⟩ | ⟨address, listed,
      asked⟩
    · rw [removalCall_eq_none_iff.mpr (leaving _ draining)] at asked
      cases asked
    · exact (admissionCall_spec asked).2.1
        (voting _ (registered_of_mem_desiredNodes listed))

/-- Three whole ticks settle any group. -/
theorem settled_afterWholeTicks
    (separate : ∀ id, Registered members id → ¬ Draining members id)
    (group : Group) :
    AtRest members
      (afterWholeTick members
        (afterWholeTick members (afterWholeTick members group))) := by
  have voting : ∀ id, Registered members id →
      (afterWholeTick members (afterWholeTick members group)).standing id =
        .voter := by
    intro id registered
    rw [standing_afterWholeTick_of_registered separate registered,
      standing_afterWholeTick_of_registered separate registered]
    cases group.standing id with
    | outside => rfl
    | learner => rfl
    | voter => rfl
  generalize afterWholeTick members (afterWholeTick members group) = current
    at voting
  refine ⟨?_, ?_⟩
  · intro id registered
    rw [standing_afterWholeTick_of_registered separate registered,
      voting id registered]
    rfl
  · intro id draining
    rw [standing_afterWholeTick_of_draining separate draining]
    split
    next stays =>
      refine .inr ⟨rfl, le_trans (Finset.card_le_card ?_) stays.2⟩
      intro other votes
      rw [← Group.standing_eq_voter_iff] at votes ⊢
      by_cases drains : Draining members other
      · rw [standing_afterWholeTick_of_draining separate drains] at votes
        split at votes
        next voted => exact voted.1
        next => cases votes
      · by_cases registered : Registered members other
        · exact voting other registered
        · rwa [standing_afterWholeTick_of_unlisted drains registered] at votes
    next => exact .inl rfl

/-! ## Overlapping ticks -/

/-- How far a listed member is from its place. -/
def away (members : List NodeState) (id : UInt64) : Standing → Nat
  | .outside => if id ∈ drainingIds members then 0 else 2
  | .learner => 1
  | .voter => if id ∈ drainingIds members then 1 else 0

/-- The raft ids of the listed members. -/
def listedIds (members : List NodeState) : Finset UInt64 :=
  (members.map fun member => raftNodeId member.nodeId).toFinset

/-- How many changes a group is away from its listed members' places. -/
def deficit (members : List NodeState) (group : Group) : Nat :=
  distance Group.standing (away members) (listedIds members) group

/-- The group and, for each member, what is left of its reconciler's tick. -/
structure Reconcilers (Member : Type) where
  group : Group
  pending : Member → List Call

inductive ReconcileEvent (Member : Type) where
  /-- A member that leads reads the list and the membership. -/
  | tick (member : Member)
  /-- Its next call changes the membership. -/
  | changed (member : Member)
  /-- Its next call fails or has nothing left to do. -/
  | passed (member : Member)

def ReconcileEvent.isChange {Member : Type} :
    ReconcileEvent Member → Bool
  | changed _ => true
  | _ => false

namespace Reconcilers

variable {Member : Type} [DecidableEq Member]

def begin (group : Group) : Reconcilers Member where
  group := group
  pending _ := []

def setPending (current : Reconcilers Member) (member : Member)
    (calls : List Call) : Reconcilers Member :=
  { current with
    pending := fun other =>
      if other = member then calls else current.pending other }

def step (members : List NodeState) (current : Reconcilers Member) :
    ReconcileEvent Member → Option (Reconcilers Member)
  | .tick member =>
      match current.pending member with
      | [] =>
          some (current.setPending member (tickCalls current.group members))
      | _ :: _ => none
  | .changed member =>
      match current.pending member with
      | [] => none
      | call :: rest =>
          if call.Effective current.group then
            some
              { current.setPending member rest with
                group := current.group.perform call }
          else
            none
  | .passed member =>
      match current.pending member with
      | [] => none
      | _ :: rest => some (current.setPending member rest)

/-! ## Every change counts -/

/-- A call that the member list justifies. -/
def Proper (members : List NodeState) : Call → Prop
  | .removeVoters id => Draining members id
  | .removeNodes id => Draining members id
  | .addLearner id _ => Registered members id
  | .addVoterIds id => Registered members id

private theorem proper_of_mem_tickCalls {group : Group} {call : Call}
    (issued : call ∈ tickCalls group members) : Proper members call := by
  rcases List.mem_append.mp issued with removal | admission
  · obtain ⟨id, listed, ⟨rfl, -⟩ | ⟨rfl, -⟩⟩ := mem_removalCalls removal
    · exact mem_drainingIds.mp (Std.ExtTreeSet.mem_toList.mp listed)
    · exact mem_drainingIds.mp (Std.ExtTreeSet.mem_toList.mp listed)
  · obtain ⟨id, address, listed, ⟨rfl, -⟩ | ⟨rfl, -⟩⟩ :=
      mem_admissionCalls admission
    · exact registered_of_mem_desiredNodes listed
    · exact registered_of_mem_desiredNodes listed

private theorem target_mem_listedIds {call : Call}
    (proper : Proper members call) :
    call.target ∈ listedIds members := by
  rw [listedIds, List.mem_toFinset, List.mem_map]
  cases call with
  | removeVoters id | removeNodes id | addLearner id address
  | addVoterIds id =>
      obtain ⟨member, inside, -, same⟩ := proper
      exact ⟨member, inside, same⟩

/-- A change brings its member closer to its place. -/
theorem away_applied_lt
    (separate : ∀ id, Registered members id → ¬ Draining members id)
    {group : Group} {call : Call} (proper : Proper members call)
    (effective : call.Effective group) :
    away members call.target
        (call.applied (group.standing call.target)) <
      away members call.target (group.standing call.target) := by
  unfold Call.Effective at effective
  cases call with
  | removeVoters id =>
      have drains : id ∈ drainingIds members := mem_drainingIds.mpr proper
      dsimp only [Call.target] at effective ⊢
      cases current : group.standing id with
      | outside => exact absurd (by rw [current]; rfl) effective
      | learner => simp [away, drains, Call.applied]
      | voter => simp [away, drains, Call.applied]
  | removeNodes id =>
      have drains : id ∈ drainingIds members := mem_drainingIds.mpr proper
      dsimp only [Call.target] at effective ⊢
      cases current : group.standing id with
      | outside => exact absurd (by rw [current]; rfl) effective
      | learner => simp [away, drains, Call.applied]
      | voter => exact absurd (by rw [current]; rfl) effective
  | addLearner id address =>
      have stays : id ∉ drainingIds members :=
        fun drains => separate id proper (mem_drainingIds.mp drains)
      dsimp only [Call.target] at effective ⊢
      cases current : group.standing id with
      | outside => simp [away, stays, Call.applied]
      | learner => exact absurd (by rw [current]; rfl) effective
      | voter => exact absurd (by rw [current]; rfl) effective
  | addVoterIds id =>
      have stays : id ∉ drainingIds members :=
        fun drains => separate id proper (mem_drainingIds.mp drains)
      dsimp only [Call.target] at effective ⊢
      cases current : group.standing id with
      | outside => exact absurd (by rw [current]; rfl) effective
      | learner => simp [away, stays, Call.applied]
      | voter => exact absurd (by rw [current]; rfl) effective

private theorem deficit_perform_lt
    (separate : ∀ id, Registered members id → ¬ Draining members id)
    {group : Group} {call : Call} (proper : Proper members call)
    (effective : call.Effective group) :
    deficit members (group.perform call) < deficit members group :=
  distance_lt standing_perform (target_mem_listedIds proper)
    (away_applied_lt separate proper effective)

/-- The calls in progress are justified, and the changes so far have been paid
from the deficit at the start. -/
structure Progresses (members : List NodeState) (start : Nat)
    (events : List (ReconcileEvent Member))
    (current : Reconcilers Member) : Prop where
  proper : ∀ member, ∀ call ∈ current.pending member, Proper members call
  paid : deficit members current.group +
    events.countP ReconcileEvent.isChange ≤ start

theorem Progresses.setPending {start : Nat}
    {events : List (ReconcileEvent Member)} {current : Reconcilers Member}
    (soFar : Progresses members start events current) (member : Member)
    {calls : List Call} (proper : ∀ call ∈ calls, Proper members call) :
    Progresses members start events (current.setPending member calls) where
  proper other := by
    dsimp only [Reconcilers.setPending]
    split
    · exact proper
    · exact soFar.proper other
  paid := soFar.paid

theorem Progresses.step {start : Nat}
    (separate : ∀ id, Registered members id → ¬ Draining members id)
    {events : List (ReconcileEvent Member)}
    {current reached : Reconcilers Member} {event : ReconcileEvent Member}
    (soFar : Progresses members start events current)
    (stepped : current.step members event = some reached) :
    Progresses members start (events ++ [event]) reached := by
  cases event with
  | tick member =>
      cases pending : current.pending member with
      | cons call rest =>
          simp [Reconcilers.step, pending] at stepped
      | nil =>
          simp only [Reconcilers.step, pending, Option.some.injEq] at stepped
          subst stepped
          have proper : ∀ call ∈ tickCalls current.group members,
              Proper members call := fun _ => proper_of_mem_tickCalls
          have kept := soFar.setPending member proper
          refine ⟨kept.proper, ?_⟩
          simpa [ReconcileEvent.isChange] using kept.paid
  | changed member =>
      cases pending : current.pending member with
      | nil =>
          simp [Reconcilers.step, pending] at stepped
      | cons call rest =>
          have proper := soFar.proper member
          rw [pending, List.forall_mem_cons] at proper
          simp only [Reconcilers.step, pending,
            Option.ite_none_right_eq_some, Option.some.injEq] at stepped
          obtain ⟨effective, rfl⟩ := stepped
          refine ⟨(soFar.setPending member proper.2).proper, ?_⟩
          have closer := deficit_perform_lt separate proper.1 effective
          have paid := soFar.paid
          simp only [List.countP_append, List.countP_singleton,
            ReconcileEvent.isChange, if_true]
          omega
  | passed member =>
      cases pending : current.pending member with
      | nil =>
          simp [Reconcilers.step, pending] at stepped
      | cons call rest =>
          have proper := soFar.proper member
          rw [pending, List.forall_mem_cons] at proper
          simp only [Reconcilers.step, pending, Option.some.injEq] at stepped
          subst stepped
          have kept := soFar.setPending member proper.2
          refine ⟨kept.proper, ?_⟩
          simpa [ReconcileEvent.isChange] using kept.paid

/-- In a settled group every tick is idle. -/
theorem idle_of_settled {group : Group} (settled : AtRest members group)
    {events : List (ReconcileEvent Member)} {finish : Reconcilers Member}
    (leads : Leads (step members) (begin group) events finish) :
    finish.group = group ∧ ∀ member, finish.pending member = [] := by
  refine Leads.invariant
    (fun _ current => current.group = group ∧
      ∀ member, current.pending member = []) ⟨rfl, fun _ => rfl⟩ ?_ leads
  rintro _ current event reached ⟨same, idle⟩ stepped
  cases event with
  | tick member =>
      simp only [Reconcilers.step, idle, same,
        tickCalls_eq_nil_iff.mpr settled, Option.some.injEq] at stepped
      subst stepped
      refine ⟨same, fun other => ?_⟩
      simp [setPending, idle]
  | changed member | passed member =>
      simp [Reconcilers.step, idle] at stepped

/-- While the coordinator lists the same members, each either draining or
registered, the reconcilers of a group change its membership at most as often as
its listed members are away from their places, however their ticks overlap and
whatever calls fail.  A tick asks for nothing exactly in a settled group, and
otherwise only for changes that have something to do; three whole ticks settle
any group, and a settled group is left alone for good. -/
theorem reconcilers_converge (members : List NodeState)
    (separate : ∀ id, Registered members id → ¬ Draining members id) :
    (∀ group events (finish : Reconcilers Member),
      Leads (step members) (begin group) events finish →
        deficit members finish.group +
            events.countP ReconcileEvent.isChange ≤ deficit members group ∧
          (AtRest members group → finish.group = group)) ∧
      (∀ group, (tickCalls group members = [] ↔ AtRest members group) ∧
        ∀ call ∈ tickCalls group members, call.Effective group) ∧
      ∀ group, AtRest members
        (afterWholeTick members
          (afterWholeTick members (afterWholeTick members group))) := by
  refine ⟨?_, fun group => ⟨tickCalls_eq_nil_iff,
    fun _ => effective_of_mem_tickCalls⟩, settled_afterWholeTicks separate⟩
  intro group events finish leads
  have progress := Leads.invariant
    (fun events current =>
      Progresses members (deficit members group) events current) ?_ ?_ leads
  · exact ⟨progress.paid, fun settled => (idle_of_settled settled leads).1⟩
  · exact ⟨fun member call pending => absurd pending List.not_mem_nil,
      le_rfl⟩
  · intro events current event reached soFar stepped
    exact soFar.step separate stepped

/-- Four voters; one drains and a newcomer is registered. -/
def listing : List NodeState :=
  [⟨"a", "a", true⟩, ⟨"b", "b", false⟩, ⟨"c", "c", false⟩, ⟨"d", "d", false⟩,
    ⟨"e", "e", false⟩]

private theorem separate_listing (id : UInt64)
    (registered : Registered listing id) :
    ¬ Draining listing id := by
  have distinct : ∀ active ∈ listing, ∀ drained ∈ listing,
      active.draining = false → drained.draining = true →
        raftNodeId active.nodeId ≠ raftNodeId drained.nodeId := by
    decide +kernel
  rintro ⟨drained, drainedInside, draining, drainedSame⟩
  obtain ⟨active, activeInside, stays, activeSame⟩ := registered
  exact distinct active activeInside drained drainedInside stays draining
    (activeSame.trans drainedSame.symm)

theorem reconcilers_converge_listing :
    AtRest listing
      (afterWholeTick listing (afterWholeTick listing
        (afterWholeTick listing (votersOnly ["a", "b", "c", "d"])))) :=
  (@reconcilers_converge Unit _ listing separate_listing).2.2 _

end Reconcilers

end Ticks

end AetherEngine.Shard
