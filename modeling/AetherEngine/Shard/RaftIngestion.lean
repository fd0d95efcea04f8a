import AetherEngine.Shard.RaftGroup

/-!
# What a Raft group has ingested

Every member of a Raft group shows what the entries it has applied leave behind,
and every entry is a batch of documents that were fetched and owned, or the
eviction of a virtual shard that some copy of the table gave away.
-/

namespace AetherEngine.Shard

open AetherEngine.Common
open AetherEngine.Frames
open AetherEngine.Ranking
open AetherEngine.Registers
open AetherEngine.ReplicatedLog
open AetherEngine.Traces
open AetherEngine.Upserts

variable {real : Type}

/-! ## Commands -/

/-- The changes of a command, in order. -/
def commandChanges (command : ShardCommand real) :
    List (DocumentChange real) :=
  match command.kind with
  | some (.batch request) => request.documents.map .upsert
  | some (.evict request) => [.evict request]
  | none => []

/-- The documents a command brings. -/
def documentsOf (command : ShardCommand real) : Batch real :=
  match command.kind with
  | some (.batch request) => request.documents
  | _ => []

theorem upsert_mem_commandChanges {command : ShardCommand real}
    {doc : FlightDocument real} :
    .upsert doc ∈ commandChanges command ↔ doc ∈ documentsOf command := by
  unfold commandChanges documentsOf
  cases command.kind with
  | none =>
      simp
  | some kind =>
      cases kind with
      | batch request => simp
      | evict request => simp

namespace HeldStore

variable {rules : TextRules} {vectors : VectorSide real}

/-- A committed payload is carried out as the command it decodes to. -/
theorem apply_of_decodes (prost : Prost real) (passes : Nat → Passes)
    (held : HeldStore rules vectors) {payload : Bytes}
    {command : ShardCommand real}
    (decodes : prost.decodeCommand payload = some command) :
    ∃ count, ShardApp.apply rules prost passes held.store payload =
      some ((held.perform passes command).store, count) := by
  rw [ShardApp.apply, decodes, Option.getD_some, perform]
  cases command.kind with
  | none =>
      exact ⟨0, rfl⟩
  | some kind =>
      cases kind with
      | batch request =>
          obtain ⟨after, inserted, -⟩ :=
            held.holds_contents.insertAll passes request.documents
          refine ⟨request.documents.length, ?_⟩
          simp only [insertAll, inserted, Option.get_some]
          rfl
      | evict request =>
          obtain ⟨after, count, evicted, -⟩ :=
            held.holds_contents.evictVshard passes request.vshard request.v
          refine ⟨count, ?_⟩
          simp only [evictVshard, evicted, Option.get_some]

/-- A snapshot is installed as the documents it was built from. -/
theorem restore_snapshotBytes (prost : Prost real) (passes : Nat → Passes)
    (held source : HeldStore rules vectors) :
    ShardApp.restore rules prost passes held.store
        (ShardApp.snapshotBytes prost source.store) =
      some ((held.replaceAll passes source.store.documents).store,
        source.store.documents.length) := by
  obtain ⟨after, replaced, -⟩ := ShardStore.holds_replaceAll rules passes
    held.store source.store.documents
  rw [ShardApp.restore, ShardApp.snapshotBytes, prost.decode_encode,
    Option.getD_some]
  simp only [replaceAll, replaced, Option.get_some]
  rfl

private theorem contents_replaceAll (passes : Nat → Passes)
    (held source : HeldStore rules vectors) :
    (held.replaceAll passes source.store.documents).contents =
      source.contents := by
  obtain ⟨after, replaced, holds⟩ := ShardStore.holds_replaceAll rules passes
    held.store source.store.documents
  simp only [contents, replaceAll, replaced, Option.get_some]
  exact holds.contents_eq

private theorem settled_perform (passes : Nat → Passes)
    (command : ShardCommand real)
    (held : HeldStore rules vectors) :
    Settled held.contents (commandChanges command)
      (held.perform passes command).contents := by
  unfold commandChanges perform
  cases command.kind with
  | none =>
      exact fun _ => rfl
  | some kind =>
      cases kind with
      | batch request =>
          dsimp only
          rw [contents_insertAll]
          exact settled_upserts held.contents request.documents
      | evict request =>
          intro aircraft
          dsimp only
          rw [getElem?_contents_evictVshard, settle_cons, settle_nil,
            DocumentChange.effectOn]
          split
          · rfl
          · rfl

end HeldStore

/-! ## What a log leaves behind -/

/-- The store has the documents that the commands leave of none. -/
def ShowsLog {rules : TextRules} {vectors : VectorSide real}
    (commands : List (ShardCommand real)) (held : HeldStore rules vectors) :
    Prop :=
  Settled ∅ (commands.flatMap commandChanges) held.contents

section ShowsLog

variable {rules : TextRules} {vectors : VectorSide real}
variable {commands : List (ShardCommand real)} {held : HeldStore rules vectors}

private theorem showsLog_new :
    ShowsLog [] (HeldStore.new : HeldStore rules vectors) :=
  fun _ => rfl

theorem ShowsLog.perform (shows : ShowsLog commands held)
    (passes : Nat → Passes) (command : ShardCommand real) :
    ShowsLog (commands ++ [command]) (held.perform passes command) := by
  rw [ShowsLog, List.flatMap_append, List.flatMap_singleton]
  exact shows.append (HeldStore.settled_perform passes command held)

theorem ShowsLog.replaceAll (shows : ShowsLog commands held)
    (passes : Nat → Passes) (prior : HeldStore rules vectors) :
    ShowsLog commands (prior.replaceAll passes held.store.documents) := by
  rw [ShowsLog, HeldStore.contents_replaceAll]
  exact shows

/-- Stores that show the same log answer alike. -/
theorem ShowsLog.sameAnswers [LinearOrder real]
    {other : HeldStore rules vectors} (shows : ShowsLog commands held)
    (otherShows : ShowsLog commands other) :
    SameAnswers rules held.store other.store :=
  sameAnswers_of_holds held.holds_contents
    (otherShows.unique shows ▸ other.holds_contents)

/-- What is left is what was there or was brought. -/
theorem of_settle_eq_some {aircraft : String}
    {changes : List (DocumentChange real)}
    {before : Option (FlightDocument real)} {doc : FlightDocument real}
    (left : settle (DocumentChange.effectOn aircraft) before changes =
      some doc) :
    before = some doc ∨ .upsert doc ∈ changes := by
  induction changes generalizing before with
  | nil =>
      exact .inl left
  | cons change rest inductionHypothesis =>
      rw [settle_cons] at left
      rcases inductionHypothesis left with kept | brought
      · cases change with
        | upsert written =>
            rw [DocumentChange.effectOn] at kept
            split at kept
            · right
              rw [← Option.some.inj kept]
              exact List.mem_cons_self
            · exact .inl kept
        | evict request =>
            rw [DocumentChange.effectOn] at kept
            split at kept
            · contradiction
            · exact .inl kept
      · exact .inr (List.mem_cons_of_mem _ brought)

theorem ShowsLog.brought (shows : ShowsLog commands held) {aircraft : String}
    {doc : FlightDocument real}
    (shown : held.contents[aircraft]? = some doc) :
    ∃ command ∈ commands, doc ∈ documentsOf command := by
  rw [shows aircraft] at shown
  rcases of_settle_eq_some shown with before | brought
  · simp at before
  · obtain ⟨command, member, inside⟩ := List.mem_flatMap.mp brought
    exact ⟨command, member, upsert_mem_commandChanges.mp inside⟩

end ShowsLog

/-! ## The members follow the log -/

namespace RaftGroup

section Invariants

variable {rules : TextRules} {vectors : VectorSide real}
variable {Member : Type} [DecidableEq Member]
variable {before after group : RaftGroup rules vectors Member}
variable {event : RaftGroupEvent real Member}
variable {ownership : Member → Ownership}
variable {events : List (RaftGroupEvent real Member)}

/-- Every replica and every snapshot shows the part of the log it stands for. -/
structure FollowsItsLog (group : RaftGroup rules vectors Member) : Prop where
  members : ∀ member,
    Follows ShowsLog group.ledger.log (group.member member).copy
  taken : ∀ snapshot ∈ group.snapshots,
    Follows ShowsLog group.ledger.log snapshot

theorem FollowsItsLog.setMember (follows : before.FollowsItsLog)
    {member : Member} {now : GroupMember rules vectors}
    (followsNow : Follows ShowsLog before.ledger.log now.copy) :
    (before.setMember member now).FollowsItsLog where
  members other := by
    dsimp only [RaftGroup.setMember]
    split
    · exact followsNow
    · exact follows.members other
  taken := follows.taken

omit [DecidableEq Member] in
theorem FollowsItsLog.handIn (follows : before.FollowsItsLog)
    (command : ShardCommand real) : (before.handIn command).FollowsItsLog :=
  ⟨follows.members, follows.taken⟩

theorem FollowsItsLog.moves (follows : before.FollowsItsLog)
    (moves : before.Moves event after) : after.FollowsItsLog := by
  cases moves with
  | acts member event now moved =>
      exact follows.setMember (moved.copy ▸ follows.members member)
  | propose member | proposeEviction member =>
      refine FollowsItsLog.handIn ?_ _
      exact follows.setMember (follows.members member)
  | written member | evicted member =>
      exact follows.setMember (follows.members member)
  | commit number waits =>
      exact ⟨fun member => (follows.members member).grows _,
        fun snapshot held => (follows.taken snapshot held).grows _⟩
  | applyNext member passes command next =>
      exact follows.setMember ((follows.members member).next next
        (fun _ shows => shows.perform passes command))
  | snapshot member =>
      refine ⟨follows.members, ?_⟩
      intro snapshot held
      rcases List.mem_append.mp held with earlier | isNow
      · exact follows.taken snapshot earlier
      · rw [List.mem_singleton.mp isNow]
        exact follows.members member
  | install member taken passes snapshot held =>
      exact follows.setMember ((follows.taken snapshot held).install
        (fun _ shows => shows.replaceAll passes _))
  | restart member =>
      exact follows.setMember (follows_fresh showsLog_new)

theorem followsItsLog (leads : Leads step (begin ownership) events group) :
    group.FollowsItsLog := by
  refine Leads.invariant (fun _ group => group.FollowsItsLog) ?_ ?_ leads
  · exact ⟨fun _ => follows_fresh showsLog_new,
      fun _ held => absurd held List.not_mem_nil⟩
  · exact fun _ _ _ _ follows stepped => follows.moves (moves_of_step stepped)

/-! ## Where the entries come from -/

/-- Some member fetched the document, and its view of the moment when it
considered it gave the aircraft to the group. -/
def Kept (rules : TextRules) (vectors : VectorSide real)
    (ownership : Member → Ownership) (events : List (RaftGroupEvent real Member))
    (doc : FlightDocument real) : Prop :=
  Once step (begin ownership : RaftGroup rules vectors Member) events
    (fun earlier event moment => ∃ member, event = .acts member .consider ∧
      (∃ rest owned,
        (moment.member member).loop = .filtering (doc :: rest) owned) ∧
      (∃ batch, .acts member (.fetch (.ok batch)) ∈ earlier ∧ doc ∈ batch) ∧
      (moment.member member).ownership.owns doc.icao24 = true)

/-- Some member copied a table when its watcher ticked. -/
def Copied (rules : TextRules) (vectors : VectorSide real)
    (ownership : Member → Ownership) (events : List (RaftGroupEvent real Member))
    (group : UInt32) (table : List UInt32) : Prop :=
  Once step (begin ownership : RaftGroup rules vectors Member) events
    (fun _ event moment => ∃ member, event = .acts member .tick ∧
      (moment.member member).ownership = .mapped group table)

/-- Some copy of the table gave the virtual shard to another group. -/
def GivenAway (rules : TextRules) (vectors : VectorSide real)
    (ownership : Member → Ownership) (events : List (RaftGroupEvent real Member))
    (request : EvictVShard) : Prop :=
  ∃ group table, Copied rules vectors ownership events group table ∧
    request.v = table.length.toUInt32 ∧
    table[request.vshard.toNat]? ≠ some group

/-- A batch of kept documents, or the eviction of a virtual shard given away. -/
def Sound (rules : TextRules) (vectors : VectorSide real)
    (ownership : Member → Ownership) (events : List (RaftGroupEvent real Member))
    (command : ShardCommand real) : Prop :=
  (∃ docs, command = batchCommand docs ∧ docs ≠ [] ∧
    ∀ doc ∈ docs, Kept rules vectors ownership events doc) ∨
  ∃ request, command = evictCommand request ∧
    GivenAway rules vectors ownership events request

section Sound

variable {doc : FlightDocument real} {request : EvictVShard}
variable {command : ShardCommand real}

theorem Kept.later (kept : Kept rules vectors ownership events doc)
    (more : List (RaftGroupEvent real Member)) :
    Kept rules vectors ownership (events ++ more) doc :=
  Once.later kept more

theorem GivenAway.later
    (given : GivenAway rules vectors ownership events request)
    (more : List (RaftGroupEvent real Member)) :
    GivenAway rules vectors ownership (events ++ more) request := by
  obtain ⟨group, table, copied, decided⟩ := given
  exact ⟨group, table, Once.later copied more, decided⟩

theorem Sound.later (sound : Sound rules vectors ownership events command)
    (more : List (RaftGroupEvent real Member)) :
    Sound rules vectors ownership (events ++ more) command := by
  rcases sound with ⟨docs, same, some, kept⟩ | ⟨request, same, given⟩
  · exact .inl ⟨docs, same, some, fun doc inside =>
      (kept doc inside).later more⟩
  · exact .inr ⟨request, same, given.later more⟩

end Sound

/-- Where what the ingestion loop has in hand comes from. -/
def LoopTraced (rules : TextRules) (vectors : VectorSide real)
    (ownership : Member → Ownership) (events : List (RaftGroupEvent real Member))
    (member : Member) : LeaderLoop real → Prop
  | .filtering rest owned =>
      (∃ batch, .acts member (.fetch (.ok batch)) ∈ events ∧ rest ⊆ batch) ∧
        ∀ doc ∈ owned, Kept rules vectors ownership events doc
  | _ => True

/-- Where what the watcher has in hand comes from. -/
def WatcherTraced (rules : TextRules) (vectors : VectorSide real)
    (ownership : Member → Ownership)
    (events : List (RaftGroupEvent real Member)) : Watcher → Prop
  | .idle => True
  | .looking group table =>
      Copied rules vectors ownership events group table
  | .sweeping rest | .writing _ rest =>
      ∀ request ∈ rest, GivenAway rules vectors ownership events request

/-- Everything in hand and everything proposed comes from somewhere. -/
structure Traced (ownership : Member → Ownership)
    (events : List (RaftGroupEvent real Member))
    (group : RaftGroup rules vectors Member) : Prop where
  loops : ∀ member, LoopTraced rules vectors ownership events member
    (group.member member).loop
  watchers : ∀ member, WatcherTraced rules vectors ownership events
    (group.member member).watcher
  proposed : ∀ command ∈ group.ledger.proposals,
    Sound rules vectors ownership events command

theorem LoopTraced.later {member : Member} {loop : LeaderLoop real}
    (traced : LoopTraced rules vectors ownership events member loop)
    (more : List (RaftGroupEvent real Member)) :
    LoopTraced rules vectors ownership (events ++ more) member loop := by
  cases loop with
  | filtering rest owned =>
      obtain ⟨⟨batch, fetched, inside⟩, kept⟩ := traced
      exact ⟨⟨batch, List.mem_append_left _ fetched, inside⟩,
        fun doc member => (kept doc member).later more⟩
  | _ => trivial

theorem WatcherTraced.later {watcher : Watcher}
    (traced : WatcherTraced rules vectors ownership events watcher)
    (more : List (RaftGroupEvent real Member)) :
    WatcherTraced rules vectors ownership (events ++ more) watcher := by
  cases watcher with
  | idle => trivial
  | looking group table => exact Once.later traced more
  | sweeping rest | writing number rest =>
      exact fun request inside => (traced request inside).later more

theorem Traced.later (traced : before.Traced ownership events)
    (more : List (RaftGroupEvent real Member)) :
    before.Traced ownership (events ++ more) where
  loops member := (traced.loops member).later more
  watchers member := (traced.watchers member).later more
  proposed command inside := (traced.proposed command inside).later more

theorem Traced.setMember (traced : before.Traced ownership events)
    {member : Member} {now : GroupMember rules vectors}
    (loop : LoopTraced rules vectors ownership events member now.loop)
    (watcher : WatcherTraced rules vectors ownership events now.watcher) :
    (before.setMember member now).Traced ownership events where
  loops other := by
    dsimp only [RaftGroup.setMember]
    split
    next same =>
      subst same
      exact loop
    · exact traced.loops other
  watchers other := by
    dsimp only [RaftGroup.setMember]
    split
    · exact watcher
    · exact traced.watchers other
  proposed := traced.proposed

theorem Traced.handIn (traced : before.Traced ownership events)
    {command : ShardCommand real}
    (sound : Sound rules vectors ownership events command) :
    (before.handIn command).Traced ownership events where
  loops := traced.loops
  watchers := traced.watchers
  proposed other inside := by
    rcases List.mem_append.mp inside with earlier | isNew
    · exact traced.proposed other earlier
    · rw [List.mem_singleton.mp isNew]
      exact sound

/-- A sweep evicts what the copied table gives away. -/
theorem givenAway_of_mem_evictions {group : UInt32} {table : List UInt32}
    {docs : List (FlightDocument real)} {request : EvictVShard}
    (copied : Copied rules vectors ownership events group table)
    (decided : request ∈ evictions group table docs) :
    GivenAway rules vectors ownership events request := by
  unfold evictions at decided
  dsimp only at decided
  split at decided
  · cases decided
  · obtain ⟨vshard, listed, rfl⟩ := List.mem_map.mp decided
    have away := (List.mem_filter.mp listed).2
    exact ⟨group, table, copied, rfl, of_decide_eq_true away⟩

theorem Traced.acts
    (leads : Leads step (begin ownership) events before)
    (traced : before.Traced ownership events) {member : Member}
    {event : MemberEvent real} {now : GroupMember rules vectors}
    (moved : (before.member member).Moves event now) :
    LoopTraced rules vectors ownership (events ++ [.acts member event]) member
        now.loop ∧
      WatcherTraced rules vectors ownership (events ++ [.acts member event])
        now.watcher := by
  have loop := (traced.loops member).later [.acts member event]
  have watcher := (traced.watchers member).later [.acts member event]
  cases moved with
  | lead waiting | standDown polling | drop filtering
  | refused number writing =>
      exact ⟨trivial, watcher⟩
  | fetchBatch doc rest polling =>
      refine ⟨⟨⟨doc :: rest, ?_, List.Subset.refl _⟩, ?_⟩, watcher⟩
      · exact List.mem_append_right _ List.mem_cons_self
      · exact fun doc inside => absurd inside List.not_mem_nil
  | fetchNothing outcome =>
      exact ⟨loop, watcher⟩
  | keep doc rest owned filtering owns =>
      rw [filtering] at loop
      obtain ⟨⟨batch, fetched, inside⟩, kept⟩ := loop
      obtain ⟨⟨earlierBatch, earlier, insideEarlier⟩, -⟩ :=
        filtering ▸ traced.loops member
      refine ⟨⟨⟨batch, fetched, ?_⟩, ?_⟩, watcher⟩
      · exact fun other later => inside (List.mem_cons_of_mem _ later)
      · intro other isKept
        rcases List.mem_append.mp isKept with before | isNow
        · exact kept other before
        · rw [List.mem_singleton.mp isNow]
          exact once_now leads ⟨member, rfl, ⟨rest, owned, filtering⟩,
            ⟨earlierBatch, earlier, insideEarlier List.mem_cons_self⟩, owns⟩
  | skip doc rest owned filtering =>
      rw [filtering] at loop
      obtain ⟨⟨batch, fetched, inside⟩, kept⟩ := loop
      exact ⟨⟨⟨batch, fetched, fun other later =>
        inside (List.mem_cons_of_mem _ later)⟩, kept⟩, watcher⟩
  | tick group table idle mapped =>
      exact ⟨loop, once_now leads ⟨member, rfl, mapped⟩⟩
  | look group table looking =>
      rw [looking] at watcher
      exact ⟨loop, fun request decided =>
        givenAway_of_mem_evictions watcher decided⟩
  | sweepOver sweeping | evictionRefused number rest writing =>
      exact ⟨loop, trivial⟩
  | replaceView table =>
      exact ⟨loop, watcher⟩

theorem Traced.moves
    (leads : Leads step (begin ownership) events before)
    (traced : before.Traced ownership events)
    (moves : before.Moves event after) :
    after.Traced ownership (events ++ [event]) := by
  have kept := traced.later [event]
  cases moves with
  | acts member event now moved =>
      obtain ⟨loop, watcher⟩ := traced.acts leads moved
      exact kept.setMember loop watcher
  | propose member doc rest filtered =>
      refine Traced.handIn ?_ (.inl ⟨doc :: rest, rfl, List.cons_ne_nil _ _,
        ?_⟩)
      · exact kept.setMember trivial (kept.watchers member)
      · exact (filtered ▸ kept.loops member).2
  | written member number writing applied =>
      exact kept.setMember trivial (kept.watchers member)
  | proposeEviction member request rest sweeping =>
      have given := sweeping ▸ kept.watchers member
      refine Traced.handIn ?_ (.inr ⟨request, rfl,
        given request List.mem_cons_self⟩)
      refine kept.setMember (kept.loops member) ?_
      exact fun other later => given other (List.mem_cons_of_mem _ later)
  | evicted member number rest writing applied =>
      have given := kept.watchers member
      rw [writing] at given
      exact kept.setMember (kept.loops member) given
  | commit number waits =>
      exact ⟨kept.loops, kept.watchers, kept.proposed⟩
  | applyNext member passes command next =>
      exact kept.setMember (kept.loops member) (kept.watchers member)
  | snapshot member =>
      exact ⟨kept.loops, kept.watchers, kept.proposed⟩
  | install member taken passes snapshot held =>
      exact kept.setMember (kept.loops member) (kept.watchers member)
  | restart member =>
      exact kept.setMember trivial trivial

theorem traced (leads : Leads step (begin ownership) events group) :
    group.Traced ownership events := by
  have always := Leads.invariant
    (fun events group => Leads step (begin ownership) events group ∧
      group.Traced ownership events) ?_ ?_ leads
  · exact always.2
  · refine ⟨leads_nil.mpr rfl, fun _ => trivial, fun _ => trivial, ?_⟩
    exact fun command inside => absurd inside List.not_mem_nil
  · rintro events current next reached ⟨leads, traced⟩ stepped
    refine ⟨?_, traced.moves leads (moves_of_step stepped)⟩
    rw [leads_append]
    exact ⟨current, leads, by simpa using stepped⟩

theorem sound_of_mem_log (leads : Leads step (begin ownership) events group)
    {command : ShardCommand real} (logged : command ∈ group.ledger.log) :
    Sound rules vectors ownership events command :=
  (traced leads).proposed command
    (group.ledger.mem_proposals_of_mem_log logged)

/-- Every document shown was fetched and owned. -/
theorem kept_of_shown (leads : Leads step (begin ownership) events group)
    {member : Member} {aircraft : String} {doc : FlightDocument real}
    (shown : (group.member member).copy.state.contents[aircraft]? =
      some doc) :
    Kept rules vectors ownership events doc := by
  have shows := ((followsItsLog leads).members member).shown
  obtain ⟨command, applied, brings⟩ := shows.brought shown
  rcases sound_of_mem_log leads (List.mem_of_mem_take applied) with
    ⟨docs, rfl, -, kept⟩ | ⟨request, rfl, -⟩
  · exact kept doc brings
  · cases brings

/-- However the members' loops, watchers, views, writes, replicas and restarts
interleave: every entry of the log is a proposal of its own, a batch of documents
that a member fetched and owned at that moment or an eviction that some copy of
the table bears out; every member shows what the entries it has applied leave
behind, and members that have applied as much answer alike; every document shown
was fetched and owned. -/
theorem members_show_owned_fetches [LinearOrder real]
    (ownership : Member → Ownership)
    (events : List (RaftGroupEvent real Member))
    (group : RaftGroup rules vectors Member)
    (leads : Leads step (begin ownership) events group) :
    (group.ledger.owners.Nodup ∧
      List.Forall₂
        (fun number command => group.ledger.proposals[number]? = some command)
        group.ledger.owners group.ledger.log) ∧
    (∀ command ∈ group.ledger.log,
      Sound rules vectors ownership events command) ∧
    (∀ member, ShowsLog
      (group.ledger.log.take (group.member member).copy.position)
      (group.member member).copy.state) ∧
    (∀ first second, (group.member first).copy.position =
        (group.member second).copy.position →
      SameAnswers rules (group.member first).copy.state.store
        (group.member second).copy.state.store) ∧
    ∀ member (aircraft : String) doc,
      (group.member member).copy.state.contents[aircraft]? = some doc →
        Kept rules vectors ownership events doc := by
  have follows := followsItsLog leads
  refine ⟨⟨(List.nodup_append.mp group.ledger.once).1, group.ledger.logged⟩,
    fun command logged => sound_of_mem_log leads logged,
    fun member => (follows.members member).shown, ?_,
    fun _ _ _ shown => kept_of_shown leads shown⟩
  intro first second same
  have shows := (follows.members first).shown
  rw [same] at shows
  exact shows.sameAnswers (follows.members second).shown

end Invariants

/-! ### A virtual shard leaves -/

namespace MovedAway

open GroupLeader.Roundtrip

/-- The first member ingests one aircraft. -/
def ingests : List (RaftGroupEvent Nat Bool) :=
  [.acts true .lead, .acts true (.fetch (.ok [sighting "aaa"])),
    .acts true .consider, .propose true, .commit 0, .applyNext true passes]

/-- The table gives the virtual shard away, and the first member's watcher hands
the eviction in.  The second member is installed from a snapshot taken before. -/
def movesAway : List (RaftGroupEvent Nat Bool) :=
  [.snapshot true, .acts true (.replaceView [1]), .acts true .tick,
    .acts true .look, .proposeEviction true, .commit 1,
    .install false 0 passes, .applyNext true passes, .evicted true]

def run : List (RaftGroupEvent Nat Bool) :=
  ingests ++ .written true :: movesAway

def finish : RaftGroup asciiText noVectors Bool :=
  (replay step (begin fun _ => .mapped 0 [0]) run).get (by decide +kernel)

theorem leads_finish :
    Leads step (begin fun _ => .mapped 0 [0]) run finish :=
  (Option.some_get _).symm

end MovedAway

theorem members_show_owned_fetches_movedAway :
    ShowsLog (MovedAway.finish.ledger.log.take
        (MovedAway.finish.member false).copy.position)
        (MovedAway.finish.member false).copy.state ∧
      Kept GroupLeader.Roundtrip.asciiText GroupLeader.Roundtrip.noVectors
        (fun _ => .mapped 0 [0]) MovedAway.run
        (GroupLeader.Roundtrip.sighting "aaa") := by
  have whole := members_show_owned_fetches _ MovedAway.run MovedAway.finish
    MovedAway.leads_finish
  exact ⟨whole.2.2.1 false, whole.2.2.2.2 false "aaa" _ rfl⟩

end RaftGroup

end AetherEngine.Shard
