import AetherEngine.Shard.Pipeline

/-!
# Primary-backup replication

Without consensus a shard's leader pushes the documents it indexed to the
followers the coordinator lists, batch by batch and best effort: a push that
fails is not repeated.  The leader's ingestion, the replication task and the
followers step in any order.
-/

namespace AetherEngine.Shard

open AetherEngine.Channels
open AetherEngine.Common
open AetherEngine.Ranking
open AetherEngine.Traces
open AetherEngine.Upserts

variable {real : Type}

/-- A follower's reply to a replicated batch. -/
structure ReplicateResponse where
  applied : UInt32
deriving DecidableEq, Repr

/-- A follower applies a replicated batch under its store's lock. -/
def replicate {rules : TextRules} {vectors : VectorSide real}
    (passes : Nat → Passes) (store : HeldStore rules vectors)
    (request : ReplicateRequest real) :
    HeldStore rules vectors × ReplicateResponse :=
  (store.insertAll passes request.documents,
    { applied := request.documents.length.toUInt32 })

/-- Where the replication task stands. -/
inductive Replicator (real : Type) where
  | receiving
  /-- Asking the coordinator for the shard's followers. -/
  | discovering (documents : Batch real)
  /-- Waiting for the pushes to these addresses to end. -/
  | pushing (documents : Batch real) (pending : List String)
  | finished

/-- A shard's leader, its replication task and the stores behind the
addresses. -/
structure ShardGroup (rules : TextRules) (vectors : VectorSide real) where
  leader : Ingestion rules vectors
  replicator : Replicator real
  followers : String → HeldStore rules vectors

inductive GroupEvent (real : Type) where
  /-- The leader's ingestion steps. -/
  | ingest (event : IngestionEvent real)
  /-- The replication task takes a batch. -/
  | receive
  /-- The coordinator lists followers, or none when it cannot be asked. -/
  | discovered (addresses : List String)
  /-- A push reaches a follower, which applies it. -/
  | applied (address : String) (passes : Nat → Passes)
  /-- A push fails. -/
  | lost (address : String)
  /-- The batch channel is closed. -/
  | close

namespace ShardGroup

variable {rules : TextRules} {vectors : VectorSide real}

/-- Every process starts with an empty store. -/
def begin (ownership : Ownership) : ShardGroup rules vectors where
  leader := .begin ownership .new (.attached .empty)
  replicator := .receiving
  followers _ := .new

/-- One push ended: wait for the others or for the next batch. -/
def awaiting (documents : Batch real) (pending : List String) :
    Replicator real :=
  if pending.isEmpty then .receiving else .pushing documents pending

/-- Push one batch to every follower. -/
def replicateToFollowers (documents : Batch real) (followers : List String) :
    Replicator real :=
  if followers.isEmpty || documents.isEmpty then .receiving
  else awaiting documents followers

def step (maxPolls : Option Nat) (shardId : UInt32)
    (group : ShardGroup rules vectors) :
    GroupEvent real → Option (ShardGroup rules vectors)
  | .ingest .take | .ingest .detach => none
  | .ingest event => do
      let leader ← group.leader.step maxPolls event
      some { group with leader := leader }
  | .receive =>
      match group.replicator, group.leader.outlet with
      | .receiving, .attached queue => do
          let (documents, _) ← queue.receive
          let leader ← group.leader.step maxPolls .take
          some
            { group with
              leader := leader
              replicator := .discovering documents }
      | _, _ => none
  | .discovered addresses =>
      match group.replicator with
      | .discovering documents =>
          some
            { group with
              replicator := replicateToFollowers documents addresses }
      | _ => none
  | .applied address passes =>
      match group.replicator with
      | .pushing documents pending =>
          if address ∈ pending then
            let request := { documents := documents, shardId := shardId }
            some
              { group with
                replicator := awaiting documents (pending.erase address)
                followers := fun other =>
                  if other = address then
                    (replicate passes (group.followers address) request).1
                  else
                    group.followers other }
          else
            none
      | _ => none
  | .lost address =>
      match group.replicator with
      | .pushing documents pending =>
          if address ∈ pending then
            some
              { group with
                replicator := awaiting documents (pending.erase address) }
          else
            none
      | _ => none
  | .close =>
      match group.replicator, group.leader.outlet, group.leader.consumer with
      | .receiving, .attached queue, .finished =>
          if queue.waiting.isEmpty then
            some { group with replicator := .finished }
          else
            none
      | _, _, _ => none

/-! ## What one step can do -/

/-- Every step of the group, with its guard. -/
inductive Moves (maxPolls : Option Nat) (before : ShardGroup rules vectors) :
    GroupEvent real → ShardGroup rules vectors → Prop where
  | ingest (event : IngestionEvent real) (leader : Ingestion rules vectors)
      (stepped : before.leader.step maxPolls event = some leader)
      (keepsQueue : event ≠ .take ∧ event ≠ .detach) :
      Moves maxPolls before (.ingest event) { before with leader := leader }
  | receive (queue after : Channel 8 (Batch real)) (documents : Batch real)
      (receiving : before.replicator = .receiving)
      (attached : before.leader.outlet = .attached queue)
      (received : queue.receive = some (documents, after)) :
      Moves maxPolls before .receive
        { before with
          leader := { before.leader with outlet := .attached after }
          replicator := .discovering documents }
  | discovered (documents : Batch real) (addresses : List String)
      (discovering : before.replicator = .discovering documents) :
      Moves maxPolls before (.discovered addresses)
        { before with
          replicator := replicateToFollowers documents addresses }
  | applied (address : String) (passes : Nat → Passes)
      (documents : Batch real) (pending : List String)
      (pushing : before.replicator = .pushing documents pending)
      (awaited : address ∈ pending) :
      Moves maxPolls before (.applied address passes)
        { before with
          replicator := awaiting documents (pending.erase address)
          followers := fun other =>
            if other = address then
              (before.followers address).insertAll passes documents
            else
              before.followers other }
  | lost (address : String) (documents : Batch real) (pending : List String)
      (pushing : before.replicator = .pushing documents pending)
      (awaited : address ∈ pending) :
      Moves maxPolls before (.lost address)
        { before with
          replicator := awaiting documents (pending.erase address) }
  | close (receiving : before.replicator = .receiving) :
      Moves maxPolls before .close { before with replicator := .finished }

theorem moves_of_step {maxPolls : Option Nat} {shardId : UInt32}
    {before after : ShardGroup rules vectors} {event : GroupEvent real}
    (stepped : before.step maxPolls shardId event = some after) :
    before.Moves maxPolls event after := by
  unfold step at stepped
  split at stepped
  · cases stepped
  · cases stepped
  case h_3 event notTake notDetach =>
    obtain ⟨leader, led, same⟩ := Option.bind_eq_some_iff.mp stepped
    cases same
    exact .ingest event leader led ⟨notTake, notDetach⟩
  case h_4 =>
    split at stepped
    case h_1 receiving attached =>
      obtain ⟨taken, received, stepped⟩ := Option.bind_eq_some_iff.mp stepped
      obtain ⟨leader, led, same⟩ := Option.bind_eq_some_iff.mp stepped
      cases same
      simp only [Ingestion.step, attached, received, Option.bind_eq_bind,
        Option.bind_some, Option.some.injEq] at led
      rw [← led]
      exact .receive _ _ _ receiving attached received
    · cases stepped
  case h_5 addresses =>
    split at stepped
    case h_1 discovering =>
      cases stepped
      exact .discovered _ _ discovering
    · cases stepped
  case h_6 address passes =>
    split at stepped
    case h_1 pushing =>
      split at stepped
      next awaited =>
        cases stepped
        exact .applied _ _ _ _ pushing awaited
      · cases stepped
    · cases stepped
  case h_7 address =>
    split at stepped
    case h_1 pushing =>
      split at stepped
      next awaited =>
        cases stepped
        exact .lost _ _ _ pushing awaited
      · cases stepped
    · cases stepped
  case h_8 =>
    split at stepped
    case h_1 receiving attached ended =>
      split at stepped
      · cases stepped
        exact .close receiving
      · cases stepped
    · cases stepped

/-! ## The leader's own trace -/

/-- The leader's part of a trace. -/
def ingestionEvents : List (GroupEvent real) → List (IngestionEvent real)
  | [] => []
  | .ingest event :: later => event :: ingestionEvents later
  | .receive :: later => .take :: ingestionEvents later
  | _ :: later => ingestionEvents later

theorem ingestionEvents_append (first second : List (GroupEvent real)) :
    ingestionEvents (first ++ second) =
      ingestionEvents first ++ ingestionEvents second := by
  fun_induction ingestionEvents first with
  | case1 =>
      rfl
  | case2 event later inductionHypothesis =>
      simp [ingestionEvents, inductionHypothesis]
  | case3 later inductionHypothesis =>
      simp [ingestionEvents, inductionHypothesis]
  | case4 event later notIngest notReceive inductionHypothesis =>
      rw [List.cons_append, ingestionEvents, inductionHypothesis]
      · exact notIngest
      · exact notReceive

/-- The documents the replication task has in hand. -/
def inHand : Replicator real → Batch real
  | .receiving => []
  | .discovering documents => documents
  | .pushing documents _ => documents
  | .finished => []

theorem awaiting_cases (documents : Batch real) (pending : List String) :
    awaiting documents pending = .receiving ∨
      awaiting documents pending = .pushing documents pending := by
  unfold awaiting
  split
  · exact .inl rfl
  · exact .inr rfl

private theorem replicateToFollowers_cases (documents : Batch real)
    (followers : List String) :
    replicateToFollowers documents followers = .receiving ∨
      replicateToFollowers documents followers =
        .pushing documents followers := by
  unfold replicateToFollowers
  split
  · exact .inl rfl
  · exact awaiting_cases documents followers

/-- The leader's trace is a run of its ingestion; what it kept is what the
replication task took, followed by what is outstanding. -/
structure LeaderAccounted (ownership : Ownership)
    (events : List (GroupEvent real)) (group : ShardGroup rules vectors) :
    Prop where
  attached : ∃ queue, group.leader.outlet = .attached queue
  accounted : Ingestion.Accounted ownership
    (HeldStore.new : HeldStore rules vectors).contents
    (ingestionEvents events) group.leader

theorem LeaderAccounted.moves {maxPolls : Option Nat} {ownership : Ownership}
    {events : List (GroupEvent real)} {before after : ShardGroup rules vectors}
    {event : GroupEvent real}
    (soFar : LeaderAccounted ownership events before)
    (moves : before.Moves maxPolls event after) :
    LeaderAccounted ownership (events ++ [event]) after := by
  obtain ⟨attached, accounted⟩ := soFar
  cases moves with
  | ingest event leader stepped keepsQueue =>
      have moves := Ingestion.moves_of_step stepped
      refine ⟨(Ingestion.outstanding_moves moves attached keepsQueue).1, ?_⟩
      rw [ingestionEvents_append]
      exact accounted.moves moves
  | receive queue rest documents receiving isAttached received =>
      refine ⟨⟨rest, rfl⟩, ?_⟩
      rw [ingestionEvents_append]
      have taken : before.leader.Moves maxPolls .take
          { before.leader with outlet := .attached rest } :=
        .take documents queue rest isAttached received
      exact accounted.moves taken
  | discovered | applied | lost | close =>
      refine ⟨attached, ?_⟩
      rw [ingestionEvents_append]
      simpa [ingestionEvents] using accounted

/-- A follower shows some of the documents the replication task is done with,
in order, and perhaps those it has in hand. -/
def Follows (address : String) (shown kept : List (FlightDocument real))
    (group : ShardGroup rules vectors) : Prop :=
  (group.followers address).contents = insertDocs shown ∅ ∧
    ∃ earlier,
      kept = earlier ++ inHand group.replicator ++ group.leader.outstanding ∧
        (shown.Sublist earlier ∨
          ∃ done, shown = done ++ inHand group.replicator ∧
            done.Sublist earlier)

theorem Follows.sublist {address : String}
    {shown kept : List (FlightDocument real)}
    {group : ShardGroup rules vectors}
    (follows : Follows address shown kept group) : shown.Sublist kept := by
  obtain ⟨-, earlier, split, place⟩ := follows
  rw [split]
  refine List.Sublist.trans ?_ (List.sublist_append_left ..)
  rcases place with asBefore | ⟨done, rfl, asBefore⟩
  · exact asBefore.trans (List.sublist_append_left ..)
  · exact asBefore.append (List.Sublist.refl _)

/-- A push that ended leaves its batch in hand, or done with. -/
theorem follows_of_awaited {address : String}
    {shown kept earlier documents : List (FlightDocument real)}
    {group : ShardGroup rules vectors} {pending : List String}
    (split : kept = earlier ++ documents ++ group.leader.outstanding)
    (shows : (group.followers address).contents = insertDocs shown ∅)
    (place : shown.Sublist earlier ∨
      ∃ done, shown = done ++ documents ∧ done.Sublist earlier)
    (awaited : group.replicator = .receiving ∨
      group.replicator = .pushing documents pending) :
    Follows address shown kept group := by
  refine ⟨shows, ?_⟩
  rcases awaited with receiving | pushing
  · refine ⟨earlier ++ documents, ?_, .inl ?_⟩
    · rw [receiving, inHand, List.append_nil]
      exact split
    · rcases place with asBefore | ⟨done, rfl, asBefore⟩
      · exact asBefore.trans (List.sublist_append_left ..)
      · exact asBefore.append (List.Sublist.refl documents)
  · rw [pushing]
    exact ⟨earlier, split, place⟩

/-- A step leaves what a follower shows, or adds the batch in hand behind
it. -/
theorem Follows.moves {maxPolls : Option Nat} {ownership : Ownership}
    {address : String} {shown : List (FlightDocument real)}
    {events : List (GroupEvent real)}
    {before after : ShardGroup rules vectors} {event : GroupEvent real}
    (led : LeaderAccounted ownership events before)
    (follows : Follows address shown
      (keptDocs ownership (ingestionEvents events)) before)
    (moves : before.Moves maxPolls event after) :
    ∃ more, Follows address (shown ++ more)
      (keptDocs ownership (ingestionEvents (events ++ [event]))) after := by
  obtain ⟨shows, earlier, split, place⟩ := follows
  rw [ingestionEvents_append]
  cases moves with
  | ingest event leader stepped keepsQueue =>
      have moves := Ingestion.moves_of_step stepped
      have grown :=
        (Ingestion.outstanding_moves moves led.attached keepsQueue).2
      refine ⟨[], ?_⟩
      rw [List.append_nil]
      refine ⟨shows, earlier, ?_, place⟩
      rw [ingestionEvents, ingestionEvents, led.accounted.keptDocs_concat moves,
        split, grown]
      simp
  | receive queue rest documents receiving attached received =>
      have taken : before.leader.Moves maxPolls .take
          { before.leader with outlet := .attached rest } :=
        .take documents queue rest attached received
      refine ⟨[], ?_⟩
      rw [List.append_nil]
      refine ⟨shows, earlier, ?_, .inl ?_⟩
      · rw [ingestionEvents, ingestionEvents,
          led.accounted.keptDocs_concat taken, split, receiving]
        simp [inHand, Ingestion.outstanding, attached, Ingestion.newlyKept,
          Channel.waiting_receive received]
      · simpa [receiving, inHand] using place
  | discovered documents addresses discovering =>
      rw [discovering] at split place
      simp only [ingestionEvents, List.append_nil]
      refine ⟨[], ?_⟩
      rw [List.append_nil]
      exact follows_of_awaited split shows place
        (replicateToFollowers_cases documents addresses)
  | applied target passes documents pending pushing awaited =>
      rw [pushing] at split place
      simp only [ingestionEvents, List.append_nil]
      by_cases same : address = target
      · subst same
        have added : ((before.followers address).insertAll passes
            documents).contents = insertDocs (shown ++ documents) ∅ := by
          rw [contents_insertAll, shows, insertDocs_append]
        rcases place with asBefore | ⟨done, rfl, asBefore⟩
        · refine ⟨documents, follows_of_awaited split ?_
            (.inr ⟨shown, rfl, asBefore⟩) (awaiting_cases ..)⟩
          simp only [if_true]
          exact added
        · -- the address was listed twice, and the batch is there already
          refine ⟨[], ?_⟩
          rw [List.append_nil]
          refine follows_of_awaited split ?_
            (.inr ⟨done, rfl, asBefore⟩) (awaiting_cases ..)
          simp only [if_true]
          rw [added, insertDocs_append, insertDocs_append, inHand,
            insertDocs_idem]
      · refine ⟨[], ?_⟩
        rw [List.append_nil]
        refine follows_of_awaited split ?_ place (awaiting_cases ..)
        simp only [if_neg same]
        exact shows
  | lost target documents pending pushing awaited =>
      rw [pushing] at split place
      simp only [ingestionEvents, List.append_nil]
      refine ⟨[], ?_⟩
      rw [List.append_nil]
      exact follows_of_awaited split shows place (awaiting_cases ..)
  | close receiving =>
      rw [receiving] at split place
      simp only [ingestionEvents, List.append_nil]
      refine ⟨[], ?_⟩
      rw [List.append_nil]
      exact ⟨shows, earlier, split, place⟩

/-- From any moment on, what a follower shows is only added to. -/
theorem Follows.leads {maxPolls : Option Nat} {shardId : UInt32}
    {ownership : Ownership} {address : String}
    {shown : List (FlightDocument real)} {events later : List (GroupEvent real)}
    {group finish : ShardGroup rules vectors}
    (led : LeaderAccounted ownership events group)
    (follows : Follows address shown
      (keptDocs ownership (ingestionEvents events)) group)
    (goesOn : Leads (step maxPolls shardId) group later finish) :
    ∃ more, Follows address (shown ++ more)
      (keptDocs ownership (ingestionEvents (events ++ later))) finish := by
  have always := goesOn.invariant
    (fun later current => LeaderAccounted ownership (events ++ later) current ∧
      ∃ more, Follows address (shown ++ more)
        (keptDocs ownership (ingestionEvents (events ++ later))) current)
    ?_ ?_
  · exact always.2
  · rw [List.append_nil]
    refine ⟨led, [], ?_⟩
    rw [List.append_nil]
    exact follows
  · intro soFar current event reached following stepped
    obtain ⟨accounted, more, follows⟩ := following
    have moves := moves_of_step stepped
    obtain ⟨added, grown⟩ := follows.moves accounted moves
    rw [← List.append_assoc]
    refine ⟨accounted.moves moves, more ++ added, ?_⟩
    rw [← List.append_assoc]
    exact grown

/-! ### One snapshot, one follower reached and one not -/

section PushedOnce

open GroupLeader.Roundtrip

/-- A snapshot is indexed, forwarded and pushed to two addresses; one push
fails. -/
def pushedOnce : List (GroupEvent Nat) :=
  [.ingest (.fetch (.ok [sighting "a1", sighting "b2"])), .ingest .send,
    .ingest .receive, .ingest (.indexNext passes),
    .ingest (.indexNext passes), .ingest .release, .ingest .forward, .receive,
    .discovered ["10.0.0.2:1", "10.0.0.3:1"], .lost "10.0.0.3:1",
    .applied "10.0.0.2:1" passes]

def afterPush : ShardGroup asciiText noVectors where
  leader :=
    { polls := 1
      producer := .polling
      buffer := .empty
      consumer := .receiving
      ownership := .all
      store := (HeldStore.new.insertAll passes [sighting "a1"]).insertAll
        passes [sighting "b2"]
      outlet := .attached .empty }
  replicator := .receiving
  followers := fun other =>
    if other = "10.0.0.2:1" then
      HeldStore.new.insertAll passes [sighting "a1", sighting "b2"]
    else
      .new

private theorem leads_pushedOnce :
    Leads (step none 0) (begin .all) pushedOnce afterPush :=
  rfl

end PushedOnce

/-- The coordinator lists the address whenever it is asked, and no push to it
fails. -/
def ReachesFollower (address : String) : GroupEvent real → Prop
  | .lost other => address ≠ other
  | .discovered addresses => address ∈ addresses
  | _ => True

/-- The documents the leader has indexed and the follower is still to apply:
those being pushed to it, then those the replication task has not taken. -/
def inFlight (address : String) (group : ShardGroup rules vectors) :
    List (FlightDocument real) :=
  let pushed :=
    match group.replicator with
    | .discovering documents => documents
    | .pushing documents pending =>
        if address ∈ pending then documents else []
    | _ => []
  pushed ++ group.leader.outstanding

/-- The leader's documents are the follower's after what is in flight. -/
def CatchesUp (address : String) (group : ShardGroup rules vectors) : Prop :=
  (∃ queue, group.leader.outlet = .attached queue) ∧
    group.leader.store.contents =
      insertDocs (group.inFlight address) (group.followers address).contents

private theorem inFlight_awaiting (address : String) (documents : Batch real)
    (pending : List String) (group : ShardGroup rules vectors)
    (awaited : group.replicator = awaiting documents pending) :
    group.inFlight address =
      (if address ∈ pending then documents else []) ++
        group.leader.outstanding := by
  unfold awaiting at awaited
  split at awaited
  next none =>
    rw [List.isEmpty_iff] at none
    simp [inFlight, awaited, none]
  next =>
    simp [inFlight, awaited]

theorem CatchesUp.moves {maxPolls : Option Nat} {address : String}
    {before after : ShardGroup rules vectors} {event : GroupEvent real}
    (catchesUp : before.CatchesUp address)
    (reaches : ReachesFollower address event)
    (moves : before.Moves maxPolls event after) :
    after.CatchesUp address := by
  obtain ⟨attached, shows⟩ := catchesUp
  cases moves with
  | ingest event leader stepped keepsQueue =>
      have moves := Ingestion.moves_of_step stepped
      obtain ⟨stillAttached, grown⟩ :=
        Ingestion.outstanding_moves moves attached keepsQueue
      refine ⟨stillAttached, ?_⟩
      rw [Ingestion.contents_moves moves, shows, ← insertDocs_append]
      simp only [inFlight, grown, List.append_assoc]
  | receive queue rest documents receiving isAttached received =>
      refine ⟨⟨rest, rfl⟩, ?_⟩
      rw [shows]
      simp [inFlight, receiving, Ingestion.outstanding, isAttached,
        Channel.waiting_receive received]
  | discovered documents addresses discovering =>
      refine ⟨attached, ?_⟩
      have listed : address ∈ addresses := reaches
      have some := List.isEmpty_eq_false_iff.mpr (List.ne_nil_of_mem listed)
      rw [shows]
      by_cases nothing : documents = []
      · simp [inFlight, discovering, nothing, replicateToFollowers]
      · have toPush : replicateToFollowers documents addresses =
            .pushing documents addresses := by
          simp [replicateToFollowers, awaiting, some, nothing]
        simp [inFlight, discovering, toPush, listed]
  | applied target passes documents pending pushing awaited =>
      refine ⟨attached, ?_⟩
      rw [inFlight_awaiting address documents (pending.erase target) _ rfl,
        shows]
      by_cases same : address = target
      · simp only [inFlight, pushing, same, if_pos awaited, if_true]
        rw [contents_insertAll, insertDocs_append, insertDocs_append]
        by_cases again : target ∈ pending.erase target
        · rw [if_pos again, insertDocs_idem]
        · rw [if_neg again, insertDocs_nil]
      · simp only [inFlight, pushing, List.mem_erase_of_ne same, if_neg same]
  | lost target documents pending pushing awaited =>
      refine ⟨attached, ?_⟩
      have other : address ≠ target := reaches
      rw [inFlight_awaiting address documents (pending.erase target) _ rfl,
        shows]
      simp only [inFlight, pushing, List.mem_erase_of_ne other]
  | close receiving =>
      refine ⟨attached, ?_⟩
      rw [shows]
      simp [inFlight, receiving]

/-- A follower that every push reaches only lags: what is in flight, applied to
its documents, gives the leader's documents, so the two answer every keyword
search alike once nothing is in flight. -/
theorem reached_follower_converges [LinearOrder real]
    (maxPolls : Option Nat) (shardId : UInt32) (ownership : Ownership)
    (events : List (GroupEvent real)) (group : ShardGroup rules vectors)
    (leads : Leads (step maxPolls shardId) (begin ownership) events group)
    (address : String)
    (reached : ∀ event ∈ events, ReachesFollower address event) :
    group.leader.store.contents =
        insertDocs (group.inFlight address) (group.followers address).contents ∧
      (group.inFlight address = [] →
        ∀ (arith : Arithmetic real) (order order' : IterationOrder (Nat × real))
          (query : String) (limit : Nat),
          (group.followers address).store.search rules arith order query
              limit =
            group.leader.store.store.search rules arith order' query
              limit) := by
  have always := leads.invariant_of_allowed
    (fun _ current => current.CatchesUp address) ?_ ?_ reached
  · refine ⟨always.2, ?_⟩
    intro drained arith order order' query limit
    have same := always.2
    rw [drained, insertDocs_nil] at same
    have follows := (group.followers address).holds_contents.search arith order
      query limit
    have leads := group.leader.store.holds_contents.search arith order' query
      limit
    rw [ShardStore.search, ShardStore.search, follows, leads, same]
  · exact ⟨⟨.empty, rfl⟩, rfl⟩
  · intro events current event reached soFar reaches stepped
    exact soFar.moves reaches (moves_of_step stepped)

theorem reached_follower_converges_pushedOnce :
    afterPush.leader.store.contents =
      insertDocs [] (afterPush.followers "10.0.0.2:1").contents :=
  (reached_follower_converges none 0 .all pushedOnce afterPush leads_pushedOnce
    "10.0.0.2:1" (by simp [pushedOnce, ReachesFollower])).1

end ShardGroup

end AetherEngine.Shard
