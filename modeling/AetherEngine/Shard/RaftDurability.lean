import AetherEngine.Shard.RaftIngestion

/-!
# What a Raft group keeps

A batch whose write has succeeded stays, at every member that has applied it,
until newer documents replace its own or a virtual shard that a copy of the table
gave away is evicted.  Where the members' slice is fixed no eviction touches it,
and every member shows the last committed document of each aircraft.
-/

namespace AetherEngine.Shard

open AetherEngine.Common
open AetherEngine.Ranking
open AetherEngine.Registers
open AetherEngine.ReplicatedLog
open AetherEngine.Traces
open AetherEngine.Upserts

variable {real : Type}

/-! ## Evictions that pass an aircraft by -/

/-- The eviction is of the aircraft's virtual shard. -/
def Hits (request : EvictVShard) (aircraft : String) : Prop :=
  request.v ≠ 0 ∧ vshardFor aircraft request.v = request.vshard

private theorem effectOn_evict_of_not_hits {request : EvictVShard}
    {aircraft : String}
    (misses : ¬ Hits request aircraft) :
    DocumentChange.effectOn aircraft
      (.evict request : DocumentChange real) = .keep :=
  if_neg misses

/-- A document stays or is replaced while no eviction is of its virtual
shard. -/
theorem exists_settle_of_misses {aircraft : String}
    {changes : List (DocumentChange real)}
    (misses : ∀ request, .evict request ∈ changes → ¬ Hits request aircraft)
    (doc : FlightDocument real) :
    ∃ shown,
      settle (DocumentChange.effectOn aircraft) (some doc) changes =
          some shown ∧
        (shown = doc ∨ .upsert shown ∈ changes) := by
  induction changes generalizing doc with
  | nil =>
      exact ⟨doc, rfl, .inl rfl⟩
  | cons change rest inductionHypothesis =>
      have restMisses : ∀ request, .evict request ∈ rest →
          ¬ Hits request aircraft :=
        fun request later => misses request (List.mem_cons_of_mem _ later)
      have goesOn : ∀ now : FlightDocument real,
          (now = doc ∨ .upsert now ∈ change :: rest) →
          (change.effectOn aircraft).act (some doc) = some now →
          ∃ shown,
            settle (DocumentChange.effectOn aircraft) (some doc)
                (change :: rest) = some shown ∧
              (shown = doc ∨ .upsert shown ∈ change :: rest) := by
        intro now source acted
        obtain ⟨shown, settled, origin⟩ := inductionHypothesis restMisses now
        refine ⟨shown, ?_, ?_⟩
        · rw [settle_cons, acted, settled]
        · rcases origin with rfl | later
          · exact source
          · exact .inr (List.mem_cons_of_mem _ later)
      cases change with
      | upsert written =>
          by_cases same : written.icao24 = aircraft
          · refine goesOn written (.inr List.mem_cons_self) ?_
            rw [DocumentChange.effectOn, if_pos same]
            rfl
          · refine goesOn doc (.inl rfl) ?_
            rw [DocumentChange.effectOn, if_neg same]
            rfl
      | evict request =>
          refine goesOn doc (.inl rfl) ?_
          rw [effectOn_evict_of_not_hits (misses request List.mem_cons_self)]
          rfl

/-- Of documents written in turn the last of an aircraft stays. -/
theorem settle_upserts {aircraft : String} (docs : Batch real)
    (start : Option (FlightDocument real)) :
    settle (DocumentChange.effectOn aircraft) start (docs.map .upsert) =
      (lastWritten FlightDocument.icao24 docs aircraft).or start := by
  induction docs using List.reverseRecOn with
  | nil =>
      rfl
  | append_singleton earlier last inductionHypothesis =>
      rw [List.map_append, settle_append, inductionHypothesis,
        lastWritten_append, List.map_singleton, settle_cons, settle_nil,
        DocumentChange.effectOn]
      by_cases same : last.icao24 = aircraft
      · simp [lastWritten, same, Effect.act]
      · simp [lastWritten, same, Effect.act]

theorem evict_mem_commandChanges {command : ShardCommand real}
    {request : EvictVShard} :
    .evict request ∈ commandChanges command ↔
      command = evictCommand request := by
  obtain ⟨kind⟩ := command
  unfold commandChanges evictCommand
  cases kind with
  | none =>
      simp
  | some kind =>
      cases kind with
      | batch written => simp
      | evict other => simp [eq_comm]

/-- Commands whose evictions pass an aircraft by leave its last document. -/
theorem settle_commands_of_misses {aircraft : String}
    {commands : List (ShardCommand real)}
    (misses : ∀ request, evictCommand request ∈ commands →
      ¬ Hits request aircraft)
    (start : Option (FlightDocument real)) :
    settle (DocumentChange.effectOn aircraft) start
        (commands.flatMap commandChanges) =
      (lastWritten FlightDocument.icao24 (commands.flatMap documentsOf)
        aircraft).or start := by
  induction commands generalizing start with
  | nil =>
      rfl
  | cons command rest inductionHypothesis =>
      have restMisses : ∀ request, evictCommand request ∈ rest →
          ¬ Hits request aircraft :=
        fun request later => misses request (List.mem_cons_of_mem _ later)
      have first : settle (DocumentChange.effectOn aircraft) start
            (commandChanges command) =
          (lastWritten FlightDocument.icao24 (documentsOf command)
            aircraft).or start := by
        have missesFirst : ∀ request,
            command = evictCommand request → ¬ Hits request aircraft :=
          fun request same => misses request (same ▸ List.mem_cons_self)
        obtain ⟨kind⟩ := command
        cases kind with
        | none =>
            rfl
        | some kind =>
            cases kind with
            | batch request =>
                exact settle_upserts request.documents start
            | evict request =>
                rw [commandChanges, settle_cons, settle_nil,
                  effectOn_evict_of_not_hits (missesFirst request rfl)]
                rfl
      rw [List.flatMap_cons, List.flatMap_cons, settle_append, first,
        inductionHypothesis restMisses, lastWritten_append, Option.or_assoc]

namespace RaftGroup

section Invariants

variable {rules : TextRules} {vectors : VectorSide real}
variable {Member : Type} [DecidableEq Member]
variable {before after group finish : RaftGroup rules vectors Member}
variable {event : RaftGroupEvent real Member}
variable {ownership : Member → Ownership}
variable {events : List (RaftGroupEvent real Member)}

/-! ## Written batches -/

theorem grows_of_moves (moves : before.Moves event after) :
    before.ledger.Grows after.ledger := by
  cases moves with
  | propose | proposeEviction =>
      exact before.ledger.grows_propose _
  | commit number waits =>
      exact before.ledger.grows_commit number waits
  | _ =>
      exact .refl _

theorem ledger_grows (leads : Leads step before events after) :
    before.ledger.Grows after.ledger := by
  refine Leads.invariant
    (fun _ current => before.ledger.Grows current.ledger) (.refl _) ?_ leads
  intro _ current next reached grown stepped
  exact grown.trans (grows_of_moves (moves_of_step stepped))

end Invariants

/-- A loop that waits for a write waits for a batch. -/
def LoopAwaits (ledger : Ledger (ShardCommand real)) :
    LeaderLoop real → Prop
  | .writing number => ∃ docs, docs ≠ [] ∧
      ledger.proposals[number]? = some (batchCommand docs)
  | _ => True

theorem LoopAwaits.grows {ledger later : Ledger (ShardCommand real)}
    {loop : LeaderLoop real} (awaits : LoopAwaits ledger loop)
    (grown : ledger.Grows later) : LoopAwaits later loop := by
  cases loop with
  | writing number =>
      obtain ⟨docs, some, found⟩ := awaits
      exact ⟨docs, some, grown.getElem?_proposals found⟩
  | _ => trivial

section Written

variable {rules : TextRules} {vectors : VectorSide real}
variable {Member : Type} [DecidableEq Member]
variable {before after group finish : RaftGroup rules vectors Member}
variable {event : RaftGroupEvent real Member}
variable {ownership : Member → Ownership}
variable {events : List (RaftGroupEvent real Member)}

/-- Every loop that waits for a write waits for a batch. -/
def AwaitBatches (group : RaftGroup rules vectors Member) : Prop :=
  ∀ member, LoopAwaits group.ledger (group.member member).loop

theorem AwaitBatches.setMember (awaits : before.AwaitBatches)
    {member : Member} {now : GroupMember rules vectors}
    (loop : LoopAwaits before.ledger now.loop) :
    (before.setMember member now).AwaitBatches := by
  intro other
  dsimp only [RaftGroup.setMember]
  split
  · exact loop
  · exact awaits other

theorem AwaitBatches.moves (awaits : before.AwaitBatches)
    (moves : before.Moves event after) : after.AwaitBatches := by
  have grown := grows_of_moves moves
  cases moves with
  | acts member event now moved =>
      refine awaits.setMember ?_
      have loop := awaits member
      cases moved with
      | tick | look | sweepOver | evictionRefused | replaceView
      | fetchNothing => exact loop
      | _ => trivial
  | propose member doc rest filtered =>
      intro other
      dsimp only [handIn, RaftGroup.setMember]
      split
      · exact ⟨doc :: rest, List.cons_ne_nil _ _, List.getElem?_concat_length⟩
      · exact (awaits other).grows grown
  | proposeEviction member request rest sweeping =>
      intro other
      dsimp only [handIn, RaftGroup.setMember]
      split
      · exact (awaits member).grows grown
      · exact (awaits other).grows grown
  | written | restart =>
      exact awaits.setMember trivial
  | evicted member | applyNext member | install member =>
      exact awaits.setMember (awaits member)
  | commit | snapshot =>
      exact awaits

private theorem awaitBatches
    (leads : Leads step (begin ownership) events group) :
    group.AwaitBatches := by
  refine Leads.invariant (fun _ group => group.AwaitBatches) ?_ ?_ leads
  · exact fun _ => trivial
  · exact fun _ _ _ _ awaits stepped => awaits.moves (moves_of_step stepped)

/-- A document of a batch in the log shows, or a newer one does, unless an entry
behind the batch evicts its virtual shard. -/
theorem showsBatch {commands : List (ShardCommand real)}
    {held : HeldStore rules vectors} (shows : ShowsLog commands held)
    {position : Nat} {docs : Batch real}
    (logged : commands[position]? = some (batchCommand docs))
    {doc : FlightDocument real} (inside : doc ∈ docs)
    (misses : ∀ request, evictCommand request ∈ commands.drop (position + 1) →
      ¬ Hits request doc.icao24) :
    ∃ shown, held.contents[doc.icao24]? = some shown ∧
      (shown ∈ docs ∨ ∃ command ∈ commands.drop (position + 1),
        shown ∈ documentsOf command) := by
  obtain ⟨front, back, rfl⟩ := List.append_of_mem inside
  obtain ⟨here, same⟩ := List.getElem?_eq_some_iff.mp logged
  have split : commands = commands.take position ++
      batchCommand (front ++ doc :: back) :: commands.drop (position + 1) := by
    rw [← same, ← List.drop_eq_getElem_cons here, List.take_append_drop]
  have changes : commands.flatMap commandChanges =
      ((commands.take position).flatMap commandChanges ++ front.map .upsert) ++
        .upsert doc :: (back.map .upsert ++
          (commands.drop (position + 1)).flatMap commandChanges) := by
    conv_lhs => rw [split]
    simp [commandChanges, batchCommand]
  have writes : DocumentChange.effectOn doc.icao24 (.upsert doc) =
      .write (some doc) := if_pos rfl
  have passes : ∀ request, .evict request ∈ back.map .upsert ++
      (commands.drop (position + 1)).flatMap commandChanges →
        ¬ Hits request doc.icao24 := by
    intro request listed
    rcases List.mem_append.mp listed with written | later
    · simp at written
    · obtain ⟨command, isLater, evicts⟩ := List.mem_flatMap.mp later
      rw [evict_mem_commandChanges] at evicts
      exact misses request (evicts ▸ isLater)
  obtain ⟨shown, settled, origin⟩ := exists_settle_of_misses passes doc
  refine ⟨shown, ?_, ?_⟩
  · rw [shows doc.icao24, changes, settle_after_write writes, settled]
  · rcases origin with rfl | brought
    · exact .inl inside
    · rcases List.mem_append.mp brought with written | later
      · left
        simp only [List.mem_map, DocumentChange.upsert.injEq,
          exists_eq_right] at written
        exact List.mem_append_right _ (List.mem_cons_of_mem _ written)
      · obtain ⟨command, isLater, brings⟩ := List.mem_flatMap.mp later
        exact .inr ⟨command, isLater, upsert_mem_commandChanges.mp brings⟩

private theorem givenAway_of_mem_log
    (leads : Leads step (begin ownership) events group)
    {request : EvictVShard} (logged : evictCommand request ∈ group.ledger.log) :
    GivenAway rules vectors ownership events request := by
  rcases sound_of_mem_log leads logged with
    ⟨docs, same, -⟩ | ⟨granted, same, given⟩
  · simp [evictCommand, batchCommand] at same
  · simp only [evictCommand, ShardCommand.mk.injEq, Option.some.injEq,
      ShardCommandKind.evict.injEq] at same
    rw [same]
    exact given

/-- Once a member has been told that its batch was written, the batch is in the
log for good: at every member that has applied it, whatever else happened, each
of its documents shows or a newer one does, unless a later entry evicts its
virtual shard, which some copy of the table then gave away. -/
theorem written_batch_stays (ownership : Member → Ownership)
    (before after : List (RaftGroupEvent real Member)) (member : Member)
    (finish : RaftGroup rules vectors Member)
    (leads : Leads step (begin ownership)
      (before ++ .written member :: after) finish) :
    ∃ (moment : RaftGroup rules vectors Member) (number : Nat)
        (docs : Batch real) (position : Nat),
      Leads step (begin ownership) before moment ∧
      (moment.member member).loop = .writing number ∧
      moment.ledger.proposals[number]? = some (batchCommand docs) ∧
      docs ≠ [] ∧
      finish.ledger.log[position]? = some (batchCommand docs) ∧
      ∀ other, position < (finish.member other).copy.position →
        ∀ doc ∈ docs,
          (∀ request, GivenAway rules vectors ownership
              (before ++ .written member :: after) request →
            evictCommand request ∈ (finish.ledger.log.take
              (finish.member other).copy.position).drop (position + 1) →
            ¬ Hits request doc.icao24) →
          ∃ shown,
            (finish.member other).copy.state.contents[doc.icao24]? =
                some shown ∧
              (shown ∈ docs ∨ ∃ command ∈ (finish.ledger.log.take
                (finish.member other).copy.position).drop (position + 1),
                shown ∈ documentsOf command) := by
  obtain ⟨moment, led, rest⟩ := leads_append.mp leads
  obtain ⟨told, stepped, goesOn⟩ := leads_cons.mp rest
  cases moves_of_step stepped with
  | written member number writing applied =>
      obtain ⟨docs, some, proposed⟩ := writing ▸ awaitBatches led member
      obtain ⟨position, owns⟩ := List.mem_iff_getElem?.mp applied
      have ownsWhole : moment.ledger.owners[position]? = .some number := by
        rw [List.getElem?_take] at owns
        split at owns
        · exact owns
        · contradiction
      have loggedThen : moment.ledger.log[position]? =
          .some (batchCommand docs) := by
        rw [moment.ledger.log_of_owner ownsWhole, proposed]
      obtain ⟨more, grown⟩ := (ledger_grows rest).log
      have logged : finish.ledger.log[position]? =
          .some (batchCommand docs) := by
        obtain ⟨inside, -⟩ := List.getElem?_eq_some_iff.mp loggedThen
        rw [← grown, List.getElem?_append_left inside, loggedThen]
      refine ⟨moment, number, docs, position, led, writing, proposed, some,
        logged, ?_⟩
      intro other passed doc inside misses
      have shows := ((followsItsLog leads).members other).shown
      refine showsBatch shows ?_ inside ?_
      · rw [List.getElem?_take, if_pos passed, logged]
      · intro request later
        exact misses request (givenAway_of_mem_log leads
          (List.mem_of_mem_take (List.mem_of_mem_drop later))) later

end Written

theorem written_batch_stays_movedAway :
    ∃ (docs : Batch Nat) (position : Nat), docs ≠ [] ∧
      MovedAway.finish.ledger.log[position]? = some (batchCommand docs) := by
  obtain ⟨-, -, docs, position, -, -, -, some, logged, -⟩ :=
    written_batch_stays (fun _ => .mapped 0 [0]) MovedAway.ingests
      MovedAway.movesAway true MovedAway.finish MovedAway.leads_finish
  exact ⟨docs, position, some, logged⟩

/-! ## A fixed slice -/

section Fixed

variable {rules : TextRules} {vectors : VectorSide real}
variable {Member : Type} [DecidableEq Member]
variable {group : RaftGroup rules vectors Member}
variable {events : List (RaftGroupEvent real Member)}

/-- Neither fetching the table anew nor a restart changes the slice. -/
def KeepsSlice (mine : Ownership) (event : RaftGroupEvent real Member) :
    Prop :=
  (∀ member table, event = .acts member (.replaceView table) →
    mine.refresh table = mine) ∧
  ∀ member now, event = .restart member now → now = mine

private theorem ownership_of_fixed {mine : Ownership}
    (leads : Leads step (begin fun _ => mine) events group)
    (fixed : ∀ event ∈ events, KeepsSlice mine event) :
    ∀ member, (group.member member).ownership = mine := by
  refine Leads.invariant_of_allowed
    (fun _ group => ∀ member, (group.member member).ownership = mine)
    (fun _ => rfl) ?_ leads fixed
  intro _ current event reached same keeps stepped
  have set : ∀ (member : Member) (now : GroupMember rules vectors),
      now.ownership = mine →
        ∀ other, ((current.setMember member now).member other).ownership =
          mine := by
    intro member now isMine other
    dsimp only [RaftGroup.setMember]
    split
    · exact isMine
    · exact same other
  cases moves_of_step stepped with
  | acts member event now moved =>
      refine set member now ?_
      cases moved with
      | replaceView table =>
          rw [same member]
          exact keeps.1 member table rfl
      | _ => exact same member
  | commit | snapshot =>
      exact same
  | propose member | written member | proposeEviction member
  | evicted member | applyNext member | install member =>
      exact set member _ (same member)
  | restart member now =>
      exact set member _ (keeps.2 member now rfl)

/-- An eviction that a fixed table bears out is of no aircraft the group
owns. -/
theorem misses_of_givenAway {mine : Ownership}
    (fixed : ∀ event ∈ events, KeepsSlice mine event)
    {request : EvictVShard}
    (given : GivenAway rules vectors (fun _ : Member => mine) events request)
    {aircraft : String} (owns : mine.owns aircraft = true) :
    ¬ Hits request aircraft := by
  obtain ⟨group, table, copied, count, away⟩ := given
  obtain ⟨earlier, next, later, moment, rfl, led, member, -, mapped⟩ := copied
  have fixedEarlier : ∀ event ∈ earlier, KeepsSlice mine event :=
    fun event inside => fixed event (List.mem_append_left _ inside)
  rw [ownership_of_fixed led fixedEarlier member] at mapped
  subst mapped
  rintro ⟨counted, inside⟩
  rw [Ownership.owns] at owns
  rw [← count, if_neg counted, inside] at owns
  exact away (of_decide_eq_true owns)

private theorem owns_of_kept {mine : Ownership}
    (fixed : ∀ event ∈ events, KeepsSlice mine event)
    {doc : FlightDocument real}
    (kept : Kept rules vectors (fun _ : Member => mine) events doc) :
    mine.owns doc.icao24 = true := by
  obtain ⟨earlier, next, later, moment, rfl, led, member, -, -, -, owns⟩ := kept
  have fixedEarlier : ∀ event ∈ earlier, KeepsSlice mine event :=
    fun event inside => fixed event (List.mem_append_left _ inside)
  rw [ownership_of_fixed led fixedEarlier member] at owns
  exact owns

/-- The documents that a member has applied. -/
def appliedDocs (group : RaftGroup rules vectors Member) (member : Member) :
    List (FlightDocument real) :=
  (group.ledger.log.take (group.member member).copy.position).flatMap
    documentsOf

/-- Nothing is applied but what the group owns. -/
theorem owns_of_mem_appliedDocs {mine : Ownership}
    (leads : Leads step (begin fun _ => mine) events group)
    (fixed : ∀ event ∈ events, KeepsSlice mine event) {member : Member}
    {doc : FlightDocument real} (listed : doc ∈ group.appliedDocs member) :
    mine.owns doc.icao24 = true := by
  obtain ⟨command, applied, brings⟩ := List.mem_flatMap.mp listed
  rcases sound_of_mem_log leads (List.mem_of_mem_take applied) with
    ⟨docs, rfl, -, kept⟩ | ⟨request, rfl, -⟩
  · exact owns_of_kept fixed (kept doc brings)
  · cases brings

theorem owns_of_shown {mine : Ownership}
    (leads : Leads step (begin fun _ => mine) events group)
    (fixed : ∀ event ∈ events, KeepsSlice mine event) {member : Member}
    {aircraft : String} {doc : FlightDocument real}
    (shown : (group.member member).copy.state.contents[aircraft]? =
      some doc) :
    mine.owns aircraft = true := by
  have shows := ((followsItsLog leads).members member).shown
  have listed : doc ∈ group.appliedDocs member :=
    List.mem_flatMap.mpr (shows.brought shown)
  rw [← (group.member member).copy.state.icao24_of_getElem?_contents shown]
  exact owns_of_mem_appliedDocs leads fixed listed

/-- No eviction touches what the group owns. -/
theorem getElem?_contents_of_owns {mine : Ownership}
    (leads : Leads step (begin fun _ => mine) events group)
    (fixed : ∀ event ∈ events, KeepsSlice mine event) (member : Member)
    {aircraft : String} (owns : mine.owns aircraft = true) :
    (group.member member).copy.state.contents[aircraft]? =
      lastWritten FlightDocument.icao24 (group.appliedDocs member)
        aircraft := by
  have shows := ((followsItsLog leads).members member).shown
  have misses : ∀ request, evictCommand request ∈ group.ledger.log.take
      (group.member member).copy.position → ¬ Hits request aircraft := by
    intro request applied
    have given := givenAway_of_mem_log leads (List.mem_of_mem_take applied)
    exact misses_of_givenAway fixed given owns
  rw [shows aircraft, settle_commands_of_misses misses, appliedDocs]
  simp

/-- While the table stays as it is, or the slice does not depend on it, every
member shows exactly the last document of each aircraft in the batches it has
applied, and all of them are the group's own: no eviction ever takes one away. -/
theorem fixed_slice_shows_last_committed (mine : Ownership)
    (events : List (RaftGroupEvent real Member))
    (group : RaftGroup rules vectors Member)
    (leads : Leads step (begin fun _ => mine) events group)
    (fixed : ∀ event ∈ events, KeepsSlice mine event) :
    ∀ member (aircraft : String),
      (group.member member).copy.state.contents[aircraft]? =
          lastWritten FlightDocument.icao24 (group.appliedDocs member)
            aircraft ∧
        ∀ doc,
          (group.member member).copy.state.contents[aircraft]? = some doc →
            mine.owns aircraft = true := by
  intro member aircraft
  refine ⟨?_, fun doc shown => owns_of_shown leads fixed shown⟩
  by_cases owns : mine.owns aircraft = true
  · exact getElem?_contents_of_owns leads fixed member owns
  · -- nothing of the aircraft was ever written
    have absent : (group.member member).copy.state.contents[aircraft]? =
        none := by
      rw [Option.eq_none_iff_forall_ne_some]
      exact fun doc shown => owns (owns_of_shown leads fixed shown)
    rw [absent, eq_comm, lastWritten, List.find?_eq_none]
    intro doc listed same
    rw [List.mem_reverse] at listed
    rw [decide_eq_true_eq] at same
    exact owns (same ▸ owns_of_mem_appliedDocs leads fixed listed)

end Fixed

/-! ### One batch at two members -/

namespace OneBatch

open GroupLeader.Roundtrip

def run : List (RaftGroupEvent Nat Bool) :=
  MovedAway.ingests ++ [.written true, .applyNext false passes]

def finish : RaftGroup asciiText noVectors Bool :=
  (replay step (begin fun _ => .mapped 0 [0]) run).get (by decide +kernel)

theorem leads_finish :
    Leads step (begin fun _ => .mapped 0 [0]) run finish :=
  (Option.some_get _).symm

private theorem keepsSlice_run :
    ∀ event ∈ run, KeepsSlice (.mapped 0 [0]) event := by
  simp [run, MovedAway.ingests, KeepsSlice]

end OneBatch

theorem fixed_slice_shows_last_committed_oneBatch :
    (OneBatch.finish.member false).copy.state.contents["aaa"]? =
        lastWritten FlightDocument.icao24
          (OneBatch.finish.appliedDocs false) "aaa" :=
  (fixed_slice_shows_last_committed (.mapped 0 [0]) OneBatch.run
    OneBatch.finish OneBatch.leads_finish OneBatch.keepsSlice_run false
    "aaa").1

end RaftGroup

end AetherEngine.Shard
