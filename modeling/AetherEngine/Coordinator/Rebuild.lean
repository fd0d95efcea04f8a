import AetherEngine.Coordinator.Sightings

/-!
# The map is rebuilt by heartbeats

In a calm stretch no longer than the reaper's timeout the live nodes get their
registrations through and each Raft group keeps its leader.  The first beat that
a live node gets answered tells it whether it is known, and by the second it is
listed again; if it leads its group the shard is routed to it.
-/

namespace AetherEngine.Coordinator

open AetherEngine.Traces

/-! ## Calm stretches -/

namespace SightingEvent

variable {Member : Type} {nodeOf : Member → ShardNode} {timeout since : Nat}
variable {leader alive : Member → Bool} {event : SightingEvent Member}
variable {registry : Registry}

/-- A beat of the node whose answer gets back. -/
def isAnsweredBeat [DecidableEq Member] (member : Member) :
    SightingEvent Member → Bool
  | beat _ _ beating _ answered _ => answered && decide (beating = member)
  | _ => false

/-- What may happen in a calm stretch: the leaders are the given ones and a live
node's process runs on, its registrations get through, and the reaper comes no
later than its timeout after the beginning. -/
def Calm (leader alive : Member → Bool) (since timeout : Nat) :
    SightingEvent Member → Prop
  | beat _ _ member leads _ now => leads = leader member ∧ since ≤ now
  | register _ now => since ≤ now
  | registrationFails member => alive member = false
  | start member => alive member = false
  | reap _ _ now => now ≤ since + timeout
  | drain _ => True
  | restart => False

theorem stays_of_calm (calm : event.Calm leader alive since timeout) :
    event ≠ .restart := by
  rintro rfl
  exact calm

private theorem within_of_calm (calm : event.Calm leader alive since timeout) :
    ∀ op ∈ event.calls nodeOf timeout registry, op.Within since := by
  cases event with
  | beat beating reporting member leads answered now =>
      intro op made
      rw [calls, List.mem_cons] at made
      rcases made with rfl | reports
      · exact calm.2
      · split at reports
        · rw [List.mem_singleton.mp reports]
          exact calm.2
        · cases reports
  | register member now =>
      intro op made
      rw [List.mem_singleton.mp made]
      exact ⟨rfl, calm⟩
  | reap reaping promoting now =>
      intro op made
      simp only [calls, List.mem_cons, List.not_mem_nil, or_false] at made
      rcases made with rfl | rfl
      · exact calm
      · trivial
  | drain nodeId =>
      intro op made
      rw [List.mem_singleton.mp made]
      trivial
  | _ =>
      intro op made
      cases made

/-- Only leaders report in a calm stretch. -/
theorem leader_of_report (calm : event.Calm leader alive since timeout)
    {reporting : RegistryPasses} {nodeId : String} {now : Nat}
    (made : .reportRaftLeader reporting nodeId now ∈
      event.calls nodeOf timeout registry) :
    ∃ member, leader member = true ∧ nodeId = (nodeOf member).nodeId := by
  cases event with
  | beat beating passes member leads answered now =>
      rw [calls, List.mem_cons] at made
      rcases made with same | reports
      · contradiction
      · split at reports
        next known =>
          have same := List.mem_singleton.mp reports
          rw [RegistryOp.reportRaftLeader.injEq] at same
          exact ⟨member, calm.1 ▸ known.1, same.2.1⟩
        · cases reports
  | _ => simp [calls] at made

end SightingEvent

/-! ## Heard of -/

namespace Registry

/-- The shard lists the node, heard of since then. -/
def Heard (registry : Registry) (shard : UInt32) (nodeId : String)
    (since : Nat) : Prop :=
  ∃ info ∈ (registry.cellAt shard).nodes,
    info.nodeId = nodeId ∧ since ≤ info.lastSeen

variable {Member : Type} {nodeOf : Member → ShardNode} {registry : Registry}
variable {shard : UInt32} {nodeId : String} {since : Nat}

theorem Heard.mono {earlier : Nat} (heard : registry.Heard shard nodeId since)
    (before : earlier ≤ since) : registry.Heard shard nodeId earlier := by
  obtain ⟨info, inside, same, recent⟩ := heard
  exact ⟨info, inside, same, before.trans recent⟩

theorem RoutesTo.mono {earlier : Nat}
    (routes : registry.RoutesTo shard nodeId since)
    (before : earlier ≤ since) : registry.RoutesTo shard nodeId earlier := by
  obtain ⟨info, leads, same, recent⟩ := routes
  exact ⟨info, leads, same, before.trans recent⟩

theorem Heard.listed (heard : registry.Heard shard nodeId since) :
    nodeId ∈ registry.nodeIds := by
  obtain ⟨info, inside, same, -⟩ := heard
  rw [← same]
  exact List.mem_map.mpr
    ⟨(shard, info), mem_entries_iff_mem_nodes.mpr inside, rfl⟩

theorem Heard.step (heard : registry.Heard shard nodeId since)
    {op : RegistryOp} (within : op.Within since) :
    (op.step registry).Heard shard nodeId since := by
  obtain ⟨info, inside, same, recent⟩ := heard
  obtain ⟨later, listed, sameLater, heardLater⟩ :=
    RegistryOp.remembers_step within shard info inside recent
  exact ⟨later, listed, sameLater.trans same, heardLater⟩

theorem Heard.final (heard : registry.Heard shard nodeId since)
    {ops : List RegistryOp} (within : ∀ op ∈ ops, op.Within since) :
    (Runs.final RegistryOp.step registry ops).Heard shard nodeId since := by
  have kept : ∀ (current : Registry) (op : RegistryOp),
      current.Heard shard nodeId since → op.Within since →
        (op.step current).Heard shard nodeId since :=
    fun current op heard within => heard.step within
  exact Runs.final_of_eachStep kept heard
    (Runs.eachStep_of_forall_mem (fun op member _ => within op member))

/-- A listed node is listed at its shard. -/
theorem InPlace.shard_of_entry (inPlace : registry.InPlace nodeOf)
    (distinct : Function.Injective (fun member => (nodeOf member).nodeId))
    {member : Member} {info : NodeInfo}
    (listed : (shard, info) ∈ registry.entries)
    (same : info.nodeId = (nodeOf member).nodeId) :
    shard = (nodeOf member).shardId := by
  obtain ⟨other, placed, named, -⟩ :=
    inPlace.placed shard info (mem_entries_iff_mem_nodes.mp listed)
  have one : other = member := distinct (named.symm.trans same)
  rw [← placed, one]

/-- A routed leader stays one while only leaders report and each group has one
leader. -/
theorem InPlace.routesTo_final (inPlace : registry.InPlace nodeOf)
    (distinct : Function.Injective (fun member => (nodeOf member).nodeId))
    {leader : Member → Bool} {member : Member}
    (alone : ∀ other, leader other = true →
      (nodeOf other).shardId = (nodeOf member).shardId → other = member)
    (routes : registry.RoutesTo (nodeOf member).shardId
      (nodeOf member).nodeId since)
    {ops : List RegistryOp} (within : ∀ op ∈ ops, op.Within since)
    (notRegistering : ∀ op ∈ ops, op.NotRegistering)
    (reporters : ∀ reporting nodeId now,
      .reportRaftLeader reporting nodeId now ∈ ops →
        ∃ other, leader other = true ∧ nodeId = (nodeOf other).nodeId) :
    (Runs.final RegistryOp.step registry ops).RoutesTo
      (nodeOf member).shardId (nodeOf member).nodeId since := by
  have kept : ∀ (current : Registry) (op : RegistryOp),
      current.InPlace nodeOf ∧ current.RoutesTo (nodeOf member).shardId
          (nodeOf member).nodeId since →
        op ∈ ops →
        (op.step current).InPlace nodeOf ∧
          (op.step current).RoutesTo (nodeOf member).shardId
            (nodeOf member).nodeId since := by
    rintro current op ⟨inPlace, routes⟩ inside
    refine ⟨inPlace.step (notRegistering op inside), ?_⟩
    refine RegistryOp.routesTo_step (within op inside) routes ?_
    intro reporting nodeId now isReport info listed same
    obtain ⟨other, leads, named⟩ :=
      reporters reporting nodeId now (isReport ▸ inside)
    have placed := inPlace.shard_of_entry distinct
      (mem_entries_iff_mem_nodes.mpr listed) (same.trans named)
    rw [named, alone other leads placed.symm]
  have always : Runs.EachStep RegistryOp.step (fun _ op => op ∈ ops)
      registry ops :=
    Runs.eachStep_of_forall_mem (fun _ inside _ => inside)
  exact (Runs.final_of_eachStep kept ⟨inPlace, routes⟩ always).2

/-- A beat of a listed node is heard of at its shard. -/
theorem InPlace.heard_of_heartbeat (inPlace : registry.InPlace nodeOf)
    (distinct : Function.Injective (fun member => (nodeOf member).nodeId))
    {member : Member} (listed : (nodeOf member).nodeId ∈ registry.nodeIds)
    (passes : RegistryPasses) (now : Nat) :
    (registry.heartbeat passes (nodeOf member).nodeId now).1.Heard
      (nodeOf member).shardId (nodeOf member).nodeId now := by
  obtain ⟨⟨shard, info⟩, inside, same, recent⟩ :=
    exists_refreshed passes listed now
  have after : (registry.heartbeat passes (nodeOf member).nodeId
      now).1.InPlace nodeOf :=
    @Registry.InPlace.step _ _ _ inPlace
      (.heartbeat passes (nodeOf member).nodeId now) (fun _ _ => by simp)
  have placed := after.shard_of_entry distinct inside same
  exact ⟨info, mem_entries_iff_mem_nodes.mp (placed ▸ inside), same,
    recent.ge⟩

/-- A beat of a listed node that leads its group has its shard routed to it. -/
theorem InPlace.routesTo_of_heartbeat (inPlace : registry.InPlace nodeOf)
    (distinct : Function.Injective (fun member => (nodeOf member).nodeId))
    {member : Member} (listed : (nodeOf member).nodeId ∈ registry.nodeIds)
    (beating reporting : RegistryPasses) (now : Nat) :
    (CoordinatorService.heartbeat beating reporting registry
      ⟨(nodeOf member).nodeId, true⟩ now).1.RoutesTo (nodeOf member).shardId
        (nodeOf member).nodeId now := by
  obtain ⟨⟨shard, info⟩, inside, same⟩ := List.mem_map.mp listed
  have placed := inPlace.shard_of_entry distinct inside same
  have rewires := (CoordinatorService.heartbeat_rewires_shard beating
    reporting registry (nodeOf member).nodeId now inPlace.unique).1 shard info
      inside same
  obtain ⟨routed, leads, named, recent⟩ := rewires.leads
  exact ⟨routed, placed ▸ leads, named, recent.ge⟩

/-- A registration in range is heard of. -/
theorem heard_of_register {node : ShardNode} {now : Nat}
    (inside : node.shardId < registry.shardCount) :
    (registry.registerAt node.registration now).1.Heard node.shardId
      node.nodeId now := by
  have admitted : registry.admits node.registration now = true := by
    simp [admits, ShardNode.registration, inside]
  refine ⟨⟨node.nodeId, node.address, .follower, now⟩, ?_, rfl, le_rfl⟩
  have place : node.shardId = node.registration.shardId := rfl
  rw [cellAt_registerAt_follower admitted rfl, if_pos place]
  exact ShardCell.entered_mem_nodes _ _

end Registry

/-! ## Two beats -/

namespace Sightings

section Calm

variable {Member : Type} [DecidableEq Member]
variable {nodeOf : Member → ShardNode} {fresh : Registry} {timeout : Nat}
variable {current reached : Sightings Member} {event : SightingEvent Member}

/-- A node about to register is so until a registration gets through or
fails. -/
theorem forgotten_kept {member : Member}
    (stepped : step nodeOf fresh timeout current event = some reached)
    (forgotten : current.forgotten member = true)
    (notRegister : ∀ now, event ≠ .register member now)
    (notFails : event ≠ .registrationFails member) :
    reached.forgotten member = true := by
  cases event with
  | beat beating reporting other leads answered now =>
      simp only [step] at stepped
      split at stepped
      · contradiction
      next known =>
        rw [← Option.some.inj stepped]
        have different : member ≠ other :=
          fun same => known (same ▸ forgotten)
        simpa [setForgotten, different] using forgotten
  | register other now =>
      simp only [step] at stepped
      split at stepped
      · rw [← Option.some.inj stepped]
        have different : member ≠ other :=
          fun same => notRegister now (by rw [same])
        simpa [setForgotten, different] using forgotten
      · contradiction
  | registrationFails other =>
      simp only [step] at stepped
      split at stepped
      · rw [← Option.some.inj stepped]
        have different : member ≠ other :=
          fun same => notFails (by rw [same])
        simpa [setForgotten, different] using forgotten
      · contradiction
  | start other =>
      simp only [step] at stepped
      split at stepped
      · contradiction
      · rw [← Option.some.inj stepped]
        simp [setForgotten, forgotten]
  | _ =>
      rw [← Option.some.inj stepped]
      exact forgotten

/-- An answered beat tells the node whether it was known. -/
theorem forgotten_of_answered {beating reporting : RegistryPasses}
    {member : Member} {leads : Bool} {now : Nat}
    (stepped : step nodeOf fresh timeout current
      (.beat beating reporting member leads true now) = some reached) :
    current.forgotten member = false ∧
      (reached.forgotten member = true ↔
        (nodeOf member).nodeId ∉ current.registry.nodeIds) ∧
      reached.registry = (CoordinatorService.heartbeat beating reporting
        current.registry ⟨(nodeOf member).nodeId, leads⟩ now).1 := by
  simp only [step] at stepped
  split at stepped
  · contradiction
  next known =>
    refine ⟨Bool.eq_false_of_not_eq_true known, ?_, ?_⟩
    · rw [← Option.some.inj stepped,
        ← @CoordinatorService.heartbeat_known_iff beating reporting _ _
          leads now]
      simp [setForgotten]
    · rw [← Option.some.inj stepped]
      rfl

/-- What holds of a live node after so many answered beats. -/
structure Recovered (nodeOf : Member → ShardNode) (shardCount : UInt32)
    (leader : Member → Bool) (since : Nat) (member : Member) (beats : Nat)
    (current : Sightings Member) : Prop where
  sane : Sane nodeOf shardCount current
  noticed : 1 ≤ beats → current.forgotten member = true ∨
    current.registry.Heard (nodeOf member).shardId (nodeOf member).nodeId since
  listed : 2 ≤ beats →
    current.registry.Heard (nodeOf member).shardId (nodeOf member).nodeId since
  routed : 2 ≤ beats → leader member = true →
    current.registry.RoutesTo (nodeOf member).shardId (nodeOf member).nodeId
      since

variable {shardCount : UInt32} {leader alive : Member → Bool} {since : Nat}
variable {member : Member} {beats : Nat}

private theorem heard_kept (calm : event.Calm leader alive since timeout)
    (stepped : step nodeOf fresh timeout current event = some reached)
    {shard : UInt32} {nodeId : String}
    (heard : current.registry.Heard shard nodeId since) :
    reached.registry.Heard shard nodeId since := by
  rw [registry_of_step stepped (SightingEvent.stays_of_calm calm)]
  exact heard.final (SightingEvent.within_of_calm calm)

private theorem routed_kept
    (distinct : Function.Injective (fun member => (nodeOf member).nodeId))
    (alone : ∀ other, leader other = true →
      (nodeOf other).shardId = (nodeOf member).shardId → other = member)
    (calm : event.Calm leader alive since timeout)
    (inPlace : current.registry.InPlace nodeOf)
    (stepped : step nodeOf fresh timeout current event = some reached)
    (routed : current.registry.RoutesTo (nodeOf member).shardId
      (nodeOf member).nodeId since) :
    reached.registry.RoutesTo (nodeOf member).shardId (nodeOf member).nodeId
      since := by
  rw [registry_of_step stepped (SightingEvent.stays_of_calm calm)]
  have within : ∀ op ∈ event.calls nodeOf timeout current.registry,
      op.Within since :=
    SightingEvent.within_of_calm calm
  by_cases registers : ∃ other now, event = .register other now
  · obtain ⟨other, now, same⟩ := registers
    subst same
    refine RegistryOp.routesTo_step (within _ List.mem_cons_self) routed ?_
    intro reporting nodeId later isReport
    contradiction
  · refine inPlace.routesTo_final distinct alone routed within ?_ ?_
    · intro op made
      refine SightingEvent.notRegistering_of_mem_calls ?_ made
      exact fun other now same => registers ⟨other, now, same⟩
    · exact fun reporting nodeId now made =>
        SightingEvent.leader_of_report calm made

/-- An answered beat in a calm stretch brings the node one beat further. -/
theorem Recovered.beat
    (distinct : Function.Injective (fun member => (nodeOf member).nodeId))
    (soFar : Recovered nodeOf shardCount leader since member beats current)
    (saneAfter : Sane nodeOf shardCount reached)
    {beating reporting : RegistryPasses} {leads : Bool} {now : Nat}
    (calm : (SightingEvent.beat beating reporting member leads true now).Calm
      leader alive since timeout)
    (stepped : Sightings.step nodeOf fresh timeout current
      (.beat beating reporting member leads true now) = some reached) :
    Recovered nodeOf shardCount leader since member (beats + 1) reached := by
  obtain ⟨known, tells, after⟩ := forgotten_of_answered stepped
  obtain ⟨sameLeader, recent⟩ := calm
  by_cases listed : (nodeOf member).nodeId ∈ current.registry.nodeIds
  · have inPlace := soFar.sane.inPlace
    have heardNow : reached.registry.Heard (nodeOf member).shardId
        (nodeOf member).nodeId since := by
      have beaten := (inPlace.heard_of_heartbeat distinct listed beating
        now).mono recent
      rw [after, CoordinatorService.heartbeat_eq]
      split
      · have reports : RegistryOp.Within since
            (.reportRaftLeader reporting (nodeOf member).nodeId now) :=
          recent
        exact beaten.step reports
      · exact beaten
    refine ⟨saneAfter, fun _ => .inr heardNow, fun _ => heardNow, ?_⟩
    intro _ isLeader
    rw [after, sameLeader, isLeader]
    exact (inPlace.routesTo_of_heartbeat distinct listed beating reporting
      now).mono recent
  · -- a node that beats once more would have been told before
    have first : beats = 0 := by
      by_contra later
      rcases soFar.noticed (Nat.one_le_iff_ne_zero.mpr later) with
        forgotten | heard
      · rw [known] at forgotten
        contradiction
      · exact listed heard.listed
    subst first
    refine ⟨saneAfter, fun _ => .inl (tells.mpr listed), ?_, ?_⟩
    · intro twice
      omega
    · intro twice
      omega

theorem Recovered.step
    (distinct : Function.Injective (fun member => (nodeOf member).nodeId))
    (oneLeader : ∀ first second, leader first = true →
      leader second = true →
      (nodeOf first).shardId = (nodeOf second).shardId → first = second)
    (count : fresh.shardCount = shardCount) (nobody : fresh.nodeIds = [])
    (inside : (nodeOf member).shardId < shardCount)
    (lives : alive member = true)
    (soFar : Recovered nodeOf shardCount leader since member beats current)
    (calm : event.Calm leader alive since timeout)
    (stepped : Sightings.step nodeOf fresh timeout current event =
      some reached) :
    Recovered nodeOf shardCount leader since member
      (beats + if event.isAnsweredBeat member then 1 else 0) reached := by
  have saneAfter := sane_step distinct count nobody soFar.sane stepped
  by_cases answered : event.isAnsweredBeat member = true
  · rw [if_pos answered]
    cases event with
    | beat beating reporting other leads gotBack now =>
        simp only [SightingEvent.isAnsweredBeat, Bool.and_eq_true,
          decide_eq_true_eq] at answered
        obtain ⟨rfl, rfl⟩ := answered
        exact soFar.beat distinct saneAfter calm stepped
    | _ => contradiction
  · rw [if_neg answered, Nat.add_zero]
    refine ⟨saneAfter, ?_, ?_, ?_⟩
    · intro once
      rcases soFar.noticed once with forgotten | heard
      · by_cases registers : ∃ now, event = .register member now
        · obtain ⟨now, same⟩ := registers
          subst same
          right
          rw [registry_of_step stepped (SightingEvent.stays_of_calm calm)]
          have inRange : (nodeOf member).shardId <
              current.registry.shardCount := by
            rw [soFar.sane.count]
            exact inside
          exact (Registry.heard_of_register inRange).mono calm
        · left
          refine forgotten_kept stepped forgotten
            (fun now same => registers ⟨now, same⟩) ?_
          rintro rfl
          rw [SightingEvent.Calm, lives] at calm
          contradiction
      · exact .inr (heard_kept calm stepped heard)
    · exact fun twice => heard_kept calm stepped (soFar.listed twice)
    · intro twice leads
      refine routed_kept distinct ?_ calm soFar.sane.inPlace stepped
        (soFar.routed twice leads)
      exact fun other alsoLeads same => oneLeader other member alsoLeads leads same

/-- In a calm stretch of any run, no longer than the reaper's timeout, a live
node that has got two beats answered is listed at its shard and address and heard
of since the stretch began; if it leads its group the shard is routed to it. -/
theorem two_beats_restore_node (nodeOf : Member → ShardNode)
    (distinct : Function.Injective (fun member => (nodeOf member).nodeId))
    (shardCount : UInt32) (livenessTimeout : Nat) (vshards : List UInt32)
    (replicated : Bool) (timeout since : Nat) (leader alive : Member → Bool)
    (oneLeader : ∀ first second, leader first = true →
      leader second = true →
      (nodeOf first).shardId = (nodeOf second).shardId → first = second)
    (before stretch : List (SightingEvent Member))
    (current reached : Sightings Member)
    (led : Leads
      (Sightings.step nodeOf
        (RegistryOp.unpopulated shardCount livenessTimeout vshards replicated)
        timeout)
      (begin
        (RegistryOp.unpopulated shardCount livenessTimeout vshards replicated))
      before current)
    (leads : Leads
      (Sightings.step nodeOf
        (RegistryOp.unpopulated shardCount livenessTimeout vshards replicated)
        timeout)
      current stretch reached)
    (calm : ∀ event ∈ stretch, event.Calm leader alive since timeout)
    (member : Member) (lives : alive member = true)
    (inside : (nodeOf member).shardId < shardCount)
    (twice : 2 ≤ stretch.countP (SightingEvent.isAnsweredBeat member)) :
    ∃ info, ((nodeOf member).shardId, info) ∈ reached.registry.entries ∧
      info.nodeId = (nodeOf member).nodeId ∧
      info.address = (nodeOf member).address ∧
      since ≤ info.lastSeen ∧
      (leader member = true →
        reached.registry.leaders[(nodeOf member).shardId]? = some info) := by
  have saneBefore := sane_of_leads distinct rfl rfl led
  have recovered := Leads.invariant_of_allowed
    (fun events current => Recovered nodeOf shardCount leader since member
      (events.countP (SightingEvent.isAnsweredBeat member)) current)
    ?_ ?_ leads calm
  · have inPlace := recovered.sane.inPlace
    obtain ⟨info, listed, same, recent⟩ := recovered.listed twice
    obtain ⟨owner, -, named, addressed⟩ := inPlace.placed _ info listed
    have one : owner = member := distinct (named.symm.trans same)
    have entered := Registry.mem_entries_iff_mem_nodes.mpr listed
    refine ⟨info, entered, same, one ▸ addressed, recent, ?_⟩
    intro isLeader
    obtain ⟨routed, isRouted, sameRouted, -⟩ :=
      recovered.routed twice isLeader
    have routedEntry : ((nodeOf member).shardId, routed) ∈
        reached.registry.entries :=
      Registry.mem_entries.mpr (.inl isRouted)
    have both := List.inj_on_of_nodup_map inPlace.unique routedEntry entered
      (sameRouted.trans same.symm)
    rw [← (Prod.mk.inj both).2]
    exact isRouted
  · refine ⟨saneBefore, ?_, ?_, ?_⟩
    · intro once
      simp at once
    · intro twice
      simp at twice
    · intro twice
      simp at twice
  · intro events now event later soFar calmEvent stepped
    rw [List.countP_append, List.countP_singleton]
    exact soFar.step distinct oneLeader rfl rfl inside lives calmEvent stepped

end Calm

namespace Restarted

/-- The nodes beat, register again and beat. -/
def stretch : List (SightingEvent Bool) :=
  [.beat passes passes false false true 10,
    .beat passes passes true true false 11, .register false 12,
    .reap passes passes 13, .beat passes passes true true true 14,
    .register true 15, .beat passes passes true true true 16,
    .reap passes passes 17]

def reached : Sightings Bool :=
  (replay (step nodeOf fresh 15000) current stretch).get (by decide +kernel)

private theorem leads_reached :
    Leads (step nodeOf fresh 15000) current stretch reached :=
  (Option.some_get _).symm

private theorem calm_stretch : ∀ event ∈ stretch,
    event.Calm id (fun _ => true) 10 15000 := by
  simp [stretch, SightingEvent.Calm]

end Restarted

theorem two_beats_restore_node_restarted :
    ∃ info, ((Restarted.nodeOf true).shardId, info) ∈
        Restarted.reached.registry.entries ∧
      info.nodeId = (Restarted.nodeOf true).nodeId ∧
      info.address = (Restarted.nodeOf true).address ∧
      10 ≤ info.lastSeen ∧
      ((id true : Bool) = true → Restarted.reached.registry.leaders[
        (Restarted.nodeOf true).shardId]? = some info) :=
  two_beats_restore_node Restarted.nodeOf Restarted.distinct 1 15000 [] false
    15000 10 id (fun _ => true)
    (fun _ _ first second _ => first.trans second.symm)
    Restarted.before Restarted.stretch Restarted.current Restarted.reached
    Restarted.leads_current Restarted.leads_reached Restarted.calm_stretch true
    rfl (by decide) (by decide)

end Sightings

end AetherEngine.Coordinator
