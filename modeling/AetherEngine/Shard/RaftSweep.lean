import AetherEngine.Shard.RaftDurability

/-!
# A sweep that runs to its end

The eviction watcher of one member looks through its store once, and hands in an
eviction for each virtual shard that its copy of the table gives away.  Other
members go on ingesting, and the members may lie anywhere in the log.  A sweep
that runs to its end leaves the group none of those virtual shards, provided
that no batch an older view kept is still on its way.
-/

namespace AetherEngine.Shard

open AetherEngine.Common
open AetherEngine.Ranking
open AetherEngine.Registers
open AetherEngine.ReplicatedLog
open AetherEngine.Traces

variable {real : Type}

/-! ## Batches of the slice only -/

/-- The command brings only aircraft of the slice. -/
def BringsOwned (mine : Ownership) (command : ShardCommand real) : Prop :=
  ∀ doc ∈ documentsOf command, mine.owns doc.icao24 = true

/-- The loop has kept only aircraft of the slice. -/
def LoopKeepsOwned (mine : Ownership) : LeaderLoop real → Prop
  | .filtering _ owned => ∀ doc ∈ owned, mine.owns doc.icao24 = true
  | _ => True

namespace RaftGroup

section Settled

variable {rules : TextRules} {vectors : VectorSide real}
variable {Member : Type} [DecidableEq Member]
variable {before after group : RaftGroup rules vectors Member}
variable {event : RaftGroupEvent real Member}

/-- Every view is of this slice, and nothing else is on its way into the log
behind the position, or there already. -/
structure SettledOn (mine : Ownership) (position : Nat)
    (group : RaftGroup rules vectors Member) : Prop where
  views : ∀ member, (group.member member).ownership = mine
  loops : ∀ member, LoopKeepsOwned mine (group.member member).loop
  waiting : ∀ number ∈ group.ledger.submitted, ∀ command,
    group.ledger.proposals[number]? = some command → BringsOwned mine command
  behind : ∀ command ∈ group.ledger.log.drop position,
    BringsOwned mine command

variable {mine : Ownership} {position : Nat}

theorem SettledOn.setMember (settled : before.SettledOn mine position)
    {member : Member} {now : GroupMember rules vectors}
    (view : now.ownership = mine) (loop : LoopKeepsOwned mine now.loop) :
    (before.setMember member now).SettledOn mine position where
  views other := by
    dsimp only [RaftGroup.setMember]
    split
    · exact view
    · exact settled.views other
  loops other := by
    dsimp only [RaftGroup.setMember]
    split
    · exact loop
    · exact settled.loops other
  waiting := settled.waiting
  behind := settled.behind

omit [DecidableEq Member] in
theorem SettledOn.handIn (settled : before.SettledOn mine position)
    {command : ShardCommand real} (brings : BringsOwned mine command) :
    (before.handIn command).SettledOn mine position where
  views := settled.views
  loops := settled.loops
  waiting number waits other found := by
    have known : number < before.ledger.proposals.length ∨
        number = before.ledger.proposals.length := by
      rcases List.mem_append.mp waits with earlier | isNew
      · exact .inl (before.ledger.known number earlier)
      · exact .inr (List.mem_singleton.mp isNew)
    rcases known with earlier | rfl
    · have waited : number ∈ before.ledger.submitted := by
        rcases List.mem_append.mp waits with listed | isNew
        · exact listed
        · exact absurd (List.mem_singleton.mp isNew) earlier.ne
      rw [RaftGroup.handIn, Ledger.propose,
        List.getElem?_append_left earlier] at found
      exact settled.waiting number waited other found
    · rw [RaftGroup.handIn, Ledger.propose,
        List.getElem?_concat_length] at found
      exact Option.some.inj found ▸ brings
  behind := settled.behind

omit [DecidableEq Member] in
theorem SettledOn.commit (settled : before.SettledOn mine position)
    (number : Nat) (waits : number ∈ before.ledger.submitted) :
    ({ before with ledger := before.ledger.commit number waits } :
      RaftGroup rules vectors Member).SettledOn mine position where
  views := settled.views
  loops := settled.loops
  waiting other listed := settled.waiting other (List.mem_of_mem_erase listed)
  behind command listed := by
    rw [Ledger.commit, List.drop_append] at listed
    rcases List.mem_append.mp listed with earlier | isNew
    · exact settled.behind command earlier
    · rw [List.mem_singleton.mp (List.mem_of_mem_drop isNew)]
      exact settled.waiting number waits _ (List.getElem?_eq_getElem _)

theorem SettledOn.acts (settled : before.SettledOn mine position)
    {member : Member} {event : MemberEvent real}
    {now : GroupMember rules vectors}
    (keeps : KeepsSlice mine (.acts member event))
    (moved : (before.member member).Moves event now) :
    (before.setMember member now).SettledOn mine position := by
  have view := settled.views member
  have loop := settled.loops member
  cases moved with
  | lead | standDown | drop | refused =>
      exact settled.setMember view trivial
  | fetchBatch =>
      exact settled.setMember view
        (fun doc kept => absurd kept List.not_mem_nil)
  | keep doc rest owned filtering owns =>
      rw [filtering] at loop
      refine settled.setMember view ?_
      intro other kept
      rcases List.mem_append.mp kept with earlier | isNow
      · exact loop other earlier
      · rw [List.mem_singleton.mp isNow, ← view]
        exact owns
  | skip doc rest owned filtering =>
      rw [filtering] at loop
      exact settled.setMember view loop
  | fetchNothing | tick | look | sweepOver | evictionRefused =>
      exact settled.setMember view loop
  | replaceView table =>
      refine settled.setMember ?_ loop
      rw [view]
      exact keeps.1 member table rfl

theorem SettledOn.moves (settled : before.SettledOn mine position)
    (keeps : KeepsSlice mine event) (moves : before.Moves event after) :
    after.SettledOn mine position := by
  cases moves with
  | acts member event now moved =>
      exact settled.acts keeps moved
  | propose member doc rest filtered =>
      have kept := filtered ▸ settled.loops member
      refine SettledOn.handIn ?_ kept
      exact settled.setMember (settled.views member) trivial
  | proposeEviction member request rest sweeping =>
      refine SettledOn.handIn ?_
        (fun doc brought => absurd brought List.not_mem_nil)
      exact settled.setMember (settled.views member) (settled.loops member)
  | commit number waits =>
      exact settled.commit number waits
  | snapshot member =>
      exact ⟨settled.views, settled.loops, settled.waiting, settled.behind⟩
  | written member =>
      exact settled.setMember (settled.views member) trivial
  | restart member now =>
      exact settled.setMember (keeps.2 member now rfl) trivial
  | evicted member | applyNext member | install member =>
      exact settled.setMember (settled.views member) (settled.loops member)

theorem SettledOn.leads {events : List (RaftGroupEvent real Member)}
    (settled : before.SettledOn mine position)
    (leads : Leads step before events after)
    (fixed : ∀ event ∈ events, KeepsSlice mine event) :
    after.SettledOn mine position := by
  refine Leads.invariant_of_allowed
    (fun _ group => group.SettledOn mine position) settled ?_ leads fixed
  exact fun _ _ _ _ settled keeps stepped =>
    settled.moves keeps (moves_of_step stepped)

end Settled

/-! ## The sweep goes on -/

/-- How a sweep stands that began with this ledger: the evictions decided are
those logged since, at most one that waits to be, and the rest. -/
def SweepStands (decided : List EvictVShard)
    (began ledger : Ledger (ShardCommand real)) : Watcher → Prop
  | .sweeping rest => ∃ done, decided = done ++ rest ∧
      ∀ request ∈ done,
        evictCommand request ∈ ledger.log.drop began.log.length
  | .writing number rest => ∃ done request,
      decided = done ++ request :: rest ∧
      (∀ request ∈ done,
        evictCommand request ∈ ledger.log.drop began.log.length) ∧
      began.proposals.length ≤ number ∧
      ledger.proposals[number]? = some (evictCommand request)
  | _ => False

theorem SweepStands.grows {decided : List EvictVShard}
    {began ledger later : Ledger (ShardCommand real)} {watcher : Watcher}
    (stands : SweepStands decided began ledger watcher)
    (grown : ledger.Grows later) : SweepStands decided began later watcher := by
  have stays : ∀ command, command ∈ ledger.log.drop began.log.length →
      command ∈ later.log.drop began.log.length :=
    fun _ logged => (grown.log.drop _).subset logged
  cases watcher with
  | idle | looking =>
      exact stands
  | sweeping rest =>
      obtain ⟨done, split, logged⟩ := stands
      exact ⟨done, split, fun request inside => stays _ (logged request inside)⟩
  | writing number rest =>
      obtain ⟨done, request, split, logged, isNew, proposed⟩ := stands
      exact ⟨done, request, split,
        fun request inside => stays _ (logged request inside), isNew,
        grown.getElem?_proposals proposed⟩

/-- The member's sweep is neither given up nor followed by another. -/
def Undisturbed {Member : Type} (member : Member)
    (event : RaftGroupEvent real Member) : Prop :=
  event ≠ .acts member .evictionRefused ∧ event ≠ .acts member .sweepOver ∧
    ∀ ownership, event ≠ .restart member ownership

section Sweep

variable {rules : TextRules} {vectors : VectorSide real}
variable {Member : Type} [DecidableEq Member]
variable {before after : RaftGroup rules vectors Member}
variable {event : RaftGroupEvent real Member} {member : Member}
variable {decided : List EvictVShard} {began : Ledger (ShardCommand real)}

theorem sweepStands_setMember {ledger : Ledger (ShardCommand real)}
    {other : Member} {now : GroupMember rules vectors}
    (stands : SweepStands decided began ledger (before.member member).watcher)
    (same : other = member → SweepStands decided began ledger now.watcher) :
    SweepStands decided began ledger
      ((before.setMember other now).member member).watcher := by
  dsimp only [RaftGroup.setMember]
  split
  next isOther =>
    exact same isOther.symm
  · exact stands

theorem SweepStands.moves (grown : began.Grows before.ledger)
    (stands : SweepStands decided began before.ledger
      (before.member member).watcher)
    (undisturbed : Undisturbed member event)
    (moves : before.Moves event after) :
    SweepStands decided began after.ledger (after.member member).watcher := by
  have stays := stands.grows (grows_of_moves moves)
  obtain ⟨notRefused, notOver, notRestarted⟩ := undisturbed
  cases moves with
  | acts other event now moved =>
      refine sweepStands_setMember stays ?_
      rintro rfl
      cases moved with
      | tick group table idle mapped =>
          rw [idle] at stands
          exact stands.elim
      | look group table looking =>
          rw [looking] at stands
          exact stands.elim
      | sweepOver =>
          contradiction
      | evictionRefused =>
          contradiction
      | _ =>
          exact stays
  | proposeEviction other request rest sweeping =>
      refine sweepStands_setMember stays ?_
      rintro rfl
      rw [sweeping] at stays
      obtain ⟨done, split, logged⟩ := stays
      exact ⟨done, request, split, logged, grown.proposals.length_le,
        List.getElem?_concat_length⟩
  | evicted other number rest writing applied =>
      refine sweepStands_setMember stays ?_
      rintro rfl
      rw [writing] at stands
      obtain ⟨done, request, split, logged, isNew, proposed⟩ := stands
      refine ⟨done ++ [request], ?_, ?_⟩
      · rw [split, List.append_assoc, List.singleton_append]
      · intro other inside
        rcases List.mem_append.mp inside with earlier | isNow
        · exact logged other earlier
        · rw [List.mem_singleton.mp isNow]
          exact grown.mem_drop_log isNew (List.mem_of_mem_take applied)
            proposed
  | commit | snapshot =>
      exact stays
  | propose other | written other | applyNext other | install other =>
      exact sweepStands_setMember stays (fun same => same ▸ stays)
  | restart other ownership =>
      refine sweepStands_setMember stays ?_
      rintro rfl
      exact absurd rfl (notRestarted ownership)

theorem SweepStands.leads {events : List (RaftGroupEvent real Member)}
    (stands : SweepStands decided before.ledger before.ledger
      (before.member member).watcher)
    (leads : Leads step before events after)
    (undisturbed : ∀ event ∈ events, Undisturbed member event) :
    SweepStands decided before.ledger after.ledger
      (after.member member).watcher := by
  have always := Leads.invariant_of_allowed
    (fun _ group => before.ledger.Grows group.ledger ∧
      SweepStands decided before.ledger group.ledger
        (group.member member).watcher)
    ⟨.refl _, stands⟩ ?_ leads undisturbed
  · exact always.2
  · rintro - current next reached ⟨grown, stands⟩ allowed stepped
    have moves := moves_of_step stepped
    exact ⟨grown.trans (grows_of_moves moves),
      stands.moves grown allowed moves⟩

end Sweep

/-! ## Nothing of the virtual shards is left -/

/-- Changes that write nothing of an aircraft leave none of it, if there was
none or one of them evicts it. -/
theorem settle_of_unwritten {aircraft : String}
    {changes : List (DocumentChange real)} {start : Option (FlightDocument real)}
    (unwritten : ∀ doc, .upsert doc ∈ changes → doc.icao24 ≠ aircraft)
    (gone : start = none ∨
      ∃ request, .evict request ∈ changes ∧ Hits request aircraft) :
    settle (DocumentChange.effectOn aircraft) start changes = none := by
  have clearing : ∀ change ∈ changes,
      DocumentChange.effectOn aircraft change = .keep ∨
        DocumentChange.effectOn aircraft change = .write none := by
    intro change listed
    cases change with
    | upsert doc => exact .inl (if_neg (unwritten doc listed))
    | evict request =>
        rw [DocumentChange.effectOn]
        split
        · exact .inr rfl
        · exact .inl rfl
  rcases gone with rfl | ⟨request, evicted, hits⟩
  · exact settle_none_of_clearing clearing
  · obtain ⟨earlier, later, rfl⟩ := List.append_of_mem evicted
    have writes : DocumentChange.effectOn aircraft
        (.evict request : DocumentChange real) = .write none := if_pos hits
    rw [settle_after_write writes]
    exact settle_none_of_clearing fun change listed =>
      clearing change (List.mem_append_right _ (List.mem_cons_of_mem _ listed))

/-- The sweep decides to evict every aircraft it holds that the table gives
away. -/
theorem exists_eviction {group : UInt32} {table : List UInt32}
    (counted : table.length.toUInt32 ≠ 0)
    {docs : List (FlightDocument real)} {doc : FlightDocument real}
    (held : doc ∈ docs)
    (foreign : (Ownership.mapped group table).owns doc.icao24 ≠ true) :
    ∃ request ∈ evictions group table docs, Hits request doc.icao24 := by
  refine ⟨⟨vshardFor doc.icao24 table.length.toUInt32,
    table.length.toUInt32⟩, ?_, counted, rfl⟩
  rw [Ownership.owns] at foreign
  rw [if_neg counted, ne_eq, decide_eq_true_eq] at foreign
  simp only [evictions, if_neg counted, heldVshards, List.mem_map,
    List.mem_filter, Std.ExtTreeSet.mem_toList, Std.ExtTreeSet.mem_ofList,
    List.contains_iff_mem, decide_eq_true_eq]
  exact ⟨_, ⟨⟨doc, held, rfl⟩, foreign⟩, rfl⟩

section Absent

variable {rules : TextRules} {vectors : VectorSide real}

/-- An aircraft that later commands write nothing of is gone once they evict
it, if it was there. -/
theorem absent_of_evicted {earlier rest : List (ShardCommand real)}
    {heldThen heldNow : HeldStore rules vectors} {aircraft : String}
    (showsThen : ShowsLog earlier heldThen)
    (showsNow : ShowsLog (earlier ++ rest) heldNow)
    (unwritten : ∀ command ∈ rest, ∀ doc ∈ documentsOf command,
      doc.icao24 ≠ aircraft)
    (evicted : ∀ doc, heldThen.contents[aircraft]? = some doc →
      ∃ request, evictCommand request ∈ rest ∧ Hits request aircraft) :
    heldNow.contents[aircraft]? = none := by
  rw [showsNow aircraft, List.flatMap_append, settle_append,
    ← showsThen aircraft]
  apply settle_of_unwritten
  · intro doc brought
    obtain ⟨command, listed, changes⟩ := List.mem_flatMap.mp brought
    exact unwritten command listed doc (upsert_mem_commandChanges.mp changes)
  · cases held : heldThen.contents[aircraft]? with
    | none =>
        exact .inl rfl
    | some doc =>
        obtain ⟨request, listed, hits⟩ := evicted doc held
        refine .inr ⟨request, ?_, hits⟩
        exact List.mem_flatMap.mpr
          ⟨_, listed, evict_mem_commandChanges.mpr rfl⟩

end Absent

section Completed

variable {rules : TextRules} {vectors : VectorSide real}
variable {Member : Type} [DecidableEq Member]

/-- A sweep that runs to its end has all its evictions logged. -/
theorem evictions_logged {moment swept : RaftGroup rules vectors Member}
    {member : Member} {group : UInt32} {table : List UInt32}
    {sweep : List (RaftGroupEvent real Member)}
    (looking : (moment.member member).watcher = .looking group table)
    (toSwept : Leads step moment (.acts member .look :: sweep) swept)
    (undisturbed : ∀ event ∈ sweep, Undisturbed member event)
    (finished : (swept.member member).watcher = .sweeping []) :
    ∀ request ∈ evictions group table
        (moment.member member).copy.state.store.documents,
      evictCommand request ∈
        swept.ledger.log.drop moment.ledger.log.length := by
  obtain ⟨looked, stepped, sweeps⟩ := leads_cons.mp toSwept
  cases moves_of_step stepped with
  | acts member event now moved =>
      cases moved with
      | look copiedGroup copiedTable copied =>
          cases looking.symm.trans copied
          have begins : SweepStands (evictions group table
              (moment.member member).copy.state.store.documents)
              moment.ledger moment.ledger
              ((moment.setMember member
                { moment.member member with
                  watcher := .sweeping (evictions group table
                    (moment.member
                      member).copy.state.store.documents) }).member
                member).watcher := by
            dsimp only [RaftGroup.setMember]
            rw [if_pos rfl]
            exact ⟨[], rfl, fun _ none => absurd none List.not_mem_nil⟩
          have ended := begins.leads sweeps undisturbed
          rw [finished] at ended
          obtain ⟨done, split, logged⟩ := ended
          rw [List.append_nil] at split
          exact fun request decided => logged request (split ▸ decided)

/-- When a sweep that began with no batch of an older view on its way has run to
its end, every member that has applied the log as it then stood shows aircraft of
the group's slice only, whatever else the members have done meanwhile and do
later, as long as the table stays. -/
theorem completed_sweep_leaves_own_slice (ownership : Member → Ownership)
    (before sweep later : List (RaftGroupEvent real Member)) (member : Member)
    (group : UInt32) (table : List UInt32)
    (counted : table.length.toUInt32 ≠ 0)
    (moment swept finish : RaftGroup rules vectors Member)
    (toMoment : Leads step (begin ownership) before moment)
    (looking : (moment.member member).watcher = .looking group table)
    (settled : moment.SettledOn (.mapped group table)
      (moment.member member).copy.position)
    (toSwept : Leads step moment (.acts member .look :: sweep) swept)
    (undisturbed : ∀ event ∈ sweep, Undisturbed member event)
    (finished : (swept.member member).watcher = .sweeping [])
    (toFinish : Leads step swept later finish)
    (fixed : ∀ event ∈ sweep ++ later,
      KeepsSlice (.mapped group table) event) :
    ∀ other,
      swept.ledger.log.length ≤ (finish.member other).copy.position →
      ∀ (aircraft : String) doc,
        (finish.member other).copy.state.contents[aircraft]? = some doc →
          (Ownership.mapped group table).owns aircraft = true := by
  intro other applied aircraft doc shown
  by_contra foreign
  have goesOn : Leads step moment ((.acts member .look :: sweep) ++ later)
      finish := leads_append.mpr ⟨swept, toSwept, toFinish⟩
  have followsThen := (followsItsLog toMoment).members member
  have followsNow := (followsItsLog
    (leads_append.mpr ⟨moment, toMoment, goesOn⟩)).members other
  have keeps : ∀ event ∈ (.acts member .look :: sweep) ++ later,
      KeepsSlice (.mapped group table) event := by
    intro event listed
    rcases List.mem_cons.mp listed with rfl | goesOn
    · constructor
      · rintro _ _ ⟨⟩
      · rintro _ _ ⟨⟩
    · exact fixed event goesOn
  have atEnd := settled.leads goesOn keeps
  have grown := ledger_grows toSwept
  have grownOn := ledger_grows toFinish
  have further := followsThen.inside.trans
    (grown.log.length_le.trans applied)
  have showsNow := followsNow.shown
  rw [(grown.trans grownOn).take_log followsThen.inside further] at showsNow
  suffices absent :
      (finish.member other).copy.state.contents[aircraft]? = none by
    rw [absent] at shown
    contradiction
  apply absent_of_evicted followsThen.shown showsNow
  · intro command listed doc brought same
    rw [List.drop_take] at listed
    have owns := atEnd.behind command (List.mem_of_mem_take listed) doc brought
    exact foreign (same ▸ owns)
  · intro doc held
    have isAircraft :=
      (moment.member member).copy.state.icao24_of_getElem?_contents held
    rw [← isAircraft] at held foreign
    obtain ⟨request, decided, hits⟩ := exists_eviction counted
      ((moment.member member).copy.state.mem_documents.mpr held) foreign
    have logged := evictions_logged looking toSwept undisturbed finished request
      decided
    have whole : swept.ledger.log <+: finish.ledger.log.take
        (finish.member other).copy.position :=
      List.prefix_take_iff.mpr ⟨grownOn.log, applied⟩
    refine ⟨request, ?_, isAircraft ▸ hits⟩
    exact List.drop_subset_drop_left _ followsThen.inside
      ((whole.drop _).subset logged)

end Completed

/-! ### One aircraft given away -/

namespace Swept

open GroupLeader.Roundtrip

/-- The first member has ingested an aircraft whose virtual shard both members
then learn to be another group's. -/
def before : List (RaftGroupEvent Nat Bool) :=
  MovedAway.ingests ++ [.written true, .acts true (.replaceView [1]),
    .acts false (.replaceView [1]), .acts true .tick]

/-- Meanwhile the other member fetches the aircraft. -/
def sweep : List (RaftGroupEvent Nat Bool) :=
  [.proposeEviction true, .acts false .lead,
    .acts false (.fetch (.ok [sighting "aaa"])), .commit 1,
    .applyNext true passes, .evicted true]

def later : List (RaftGroupEvent Nat Bool) :=
  [.acts false .consider, .acts false .drop, .applyNext false passes,
    .applyNext false passes]

def moment : RaftGroup asciiText noVectors Bool :=
  (replay step (begin fun _ => .mapped 0 [0]) before).get (by decide +kernel)

def swept : RaftGroup asciiText noVectors Bool :=
  (replay step moment (.acts true .look :: sweep)).get (by decide +kernel)

def finish : RaftGroup asciiText noVectors Bool :=
  (replay step swept later).get (by decide +kernel)

private theorem settledOn_moment : moment.SettledOn (.mapped 0 [1])
    (moment.member true).copy.position where
  views member := by
    cases member with
    | true => rfl
    | false => rfl
  loops member := by
    cases member with
    | true => trivial
    | false => trivial
  waiting number waits := absurd waits (by
    have none : moment.ledger.submitted = [] := by decide +kernel
    rw [none]
    exact List.not_mem_nil)
  behind command listed := absurd listed List.not_mem_nil

private theorem undisturbed_sweep :
    ∀ event ∈ sweep, Undisturbed true event := by
  simp [sweep, Undisturbed]

private theorem keepsSlice_after : ∀ event ∈ sweep ++ later,
    KeepsSlice (.mapped 0 [1]) event := by
  simp [sweep, later, KeepsSlice]

end Swept

theorem completed_sweep_leaves_own_slice_swept :
    ((Swept.moment.member true).copy.state.contents["aaa"]?).isSome = true ∧
      (Swept.finish.member false).copy.state.contents["aaa"]? = none := by
  refine ⟨by decide +kernel, ?_⟩
  rw [Option.eq_none_iff_forall_ne_some]
  intro doc shown
  have owns := completed_sweep_leaves_own_slice (fun _ => .mapped 0 [0])
    Swept.before Swept.sweep Swept.later true 0 [1] (by decide) Swept.moment
    Swept.swept Swept.finish (Option.some_get _).symm rfl
    Swept.settledOn_moment (Option.some_get _).symm Swept.undisturbed_sweep rfl
    (Option.some_get _).symm Swept.keepsSlice_after false (by decide +kernel)
    "aaa" doc shown
  contradiction

end RaftGroup

end AetherEngine.Shard
