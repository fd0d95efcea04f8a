import AetherEngine.Foundations.Channels
import AetherEngine.Foundations.Traces
import AetherEngine.Foundations.Upserts
import AetherEngine.Shard.Eviction

/-!
# The ingestion pipeline

A producer polls the source and hands each snapshot to a consumer over a small
bounded channel; the consumer indexes the documents the node owns, one by one
under the store's lock, and forwards what it indexed to the replication task
when there is one.  The placement view may change between any two documents.

Every order of the two tasks' steps leaves the same account: what was fetched
is what was considered, is in hand or waits, in the order of the fetches.
-/

namespace AetherEngine.Shard

open AetherEngine.Channels
open AetherEngine.Common
open AetherEngine.Ranking
open AetherEngine.Traces
open AetherEngine.Upserts

variable {real : Type}

/-- One snapshot of the source. -/
abbrev Batch (real : Type) := List (FlightDocument real)

/-- Where the polling loop stands. -/
inductive Producer (real : Type) where
  | polling
  /-- At the channel, with a snapshot in hand. -/
  | sending (batch : Batch real)
  /-- The loop is over and its end of the channel dropped. -/
  | finished

/-- Where the indexing task stands. -/
inductive Consumer (real : Type) where
  | receiving
  /-- Under the store's write lock, with the documents still to consider and
  those collected for replication. -/
  | indexing (rest indexed : Batch real)
  /-- At the replication channel, with the indexed documents in hand. -/
  | forwarding (indexed : Batch real)
  | finished

/-- The sending end of the replication channel, when the node has one. -/
inductive Outlet (real : Type) where
  | absent
  | attached (queue : Channel 8 (Batch real))
  /-- The replication task has gone away. -/
  | detached

/-- The state `run_ingestion` and its consumer share. -/
structure Ingestion (rules : TextRules) (vectors : VectorSide real) where
  polls : Nat
  producer : Producer real
  buffer : Channel 4 (Batch real)
  consumer : Consumer real
  ownership : Ownership
  store : HeldStore rules vectors
  outlet : Outlet real

inductive IngestionEvent (real : Type) where
  /-- The poll limit is reached. -/
  | stop
  | fetch (outcome : Except String (Batch real))
  /-- The channel takes the snapshot in hand. -/
  | send
  | receive
  /-- The next document is considered. -/
  | indexNext (passes : Nat → Passes)
  /-- The batch is through; the lock is released. -/
  | release
  /-- The replication channel takes the indexed documents. -/
  | forward
  /-- The placement view is fetched anew. -/
  | replaceView (table : List UInt32)
  /-- The replication task takes the next batch. -/
  | take
  /-- The replication task goes away. -/
  | detach

/-- The live view is replaced; a fixed slice has none. -/
def Ownership.refresh (table : List UInt32) : Ownership → Ownership
  | .all => .all
  | .modulo index count => .modulo index count
  | .mapped group _ => .mapped group table

namespace Ingestion

variable {rules : TextRules} {vectors : VectorSide real}

def begin (ownership : Ownership) (store : HeldStore rules vectors)
    (outlet : Outlet real) : Ingestion rules vectors where
  polls := 0
  producer := .polling
  buffer := .empty
  consumer := .receiving
  ownership := ownership
  store := store
  outlet := outlet

/-- Does the loop poll once more? -/
def mayPoll (maxPolls : Option Nat) (ingestion : Ingestion rules vectors) :
    Bool :=
  maxPolls.all (fun limit => ingestion.polls < limit)

/-- Documents are collected for replication when there is a channel. -/
def collect (outlet : Outlet real) (indexed : Batch real)
    (doc : FlightDocument real) : Batch real :=
  match outlet with
  | .absent => indexed
  | _ => indexed ++ [doc]

/-- The polling loop's part. -/
def produce (maxPolls : Option Nat) (ingestion : Ingestion rules vectors) :
    IngestionEvent real → Option (Ingestion rules vectors)
  | .stop =>
      match ingestion.producer with
      | .polling =>
          if ingestion.mayPoll maxPolls then none
          else some { ingestion with producer := .finished }
      | _ => none
  | .fetch outcome =>
      match ingestion.producer with
      | .polling =>
          if ingestion.mayPoll maxPolls then
            match outcome with
            | .ok (doc :: rest) =>
                some { ingestion with producer := .sending (doc :: rest) }
            -- an empty snapshot and a failed fetch only count as polls
            | _ => some { ingestion with polls := ingestion.polls + 1 }
          else
            none
      | _ => none
  | .send =>
      match ingestion.producer, ingestion.consumer with
      -- the consumer is gone
      | .sending _, .finished => some { ingestion with producer := .finished }
      | .sending batch, _ => do
          let buffer ← ingestion.buffer.send batch
          some
            { ingestion with
              polls := ingestion.polls + 1
              producer := .polling
              buffer := buffer }
      | _, _ => none
  | _ => none

/-- The indexing task's part. -/
def consume (ingestion : Ingestion rules vectors) :
    IngestionEvent real → Option (Ingestion rules vectors)
  | .receive =>
      match ingestion.consumer with
      | .receiving =>
          match ingestion.buffer.receive with
          | some (batch, buffer) =>
              some
                { ingestion with
                  buffer := buffer
                  consumer := .indexing batch [] }
          | none =>
              match ingestion.producer with
              | .finished => some { ingestion with consumer := .finished }
              | _ => none
      | _ => none
  | .indexNext passes =>
      match ingestion.consumer with
      | .indexing (doc :: rest) indexed =>
          if ingestion.ownership.owns doc.icao24 then
            some
              { ingestion with
                store := ingestion.store.insertAll passes [doc]
                consumer :=
                  .indexing rest (collect ingestion.outlet indexed doc) }
          else
            some { ingestion with consumer := .indexing rest indexed }
      | _ => none
  | .release =>
      match ingestion.consumer, ingestion.outlet with
      | .indexing [] _, .absent =>
          some { ingestion with consumer := .receiving }
      | .indexing [] indexed, _ =>
          some { ingestion with consumer := .forwarding indexed }
      | _, _ => none
  | .forward =>
      match ingestion.consumer, ingestion.outlet with
      | .forwarding indexed, .attached queue => do
          let queue ← queue.send indexed
          some
            { ingestion with
              consumer := .receiving
              outlet := .attached queue }
      -- replication is best effort and never stalls ingestion
      | .forwarding _, .detached =>
          some { ingestion with consumer := .receiving }
      | _, _ => none
  | _ => none

def step (maxPolls : Option Nat) (ingestion : Ingestion rules vectors)
    (event : IngestionEvent real) : Option (Ingestion rules vectors) :=
  match event with
  | .stop | .fetch _ | .send => ingestion.produce maxPolls event
  | .receive | .indexNext _ | .release | .forward => ingestion.consume event
  | .replaceView table =>
      some
        { ingestion with ownership := ingestion.ownership.refresh table }
  | .take =>
      match ingestion.outlet with
      | .attached queue => do
          let (_, queue) ← queue.receive
          some { ingestion with outlet := .attached queue }
      | _ => none
  | .detach =>
      match ingestion.outlet with
      | .attached _ => some { ingestion with outlet := .detached }
      | _ => none

/-! ## What one step can do -/

/-- Every step of the pipeline, with its guard. -/
inductive Moves (maxPolls : Option Nat) (before : Ingestion rules vectors) :
    IngestionEvent real → Ingestion rules vectors → Prop where
  | stop (polling : before.producer = .polling)
      (limited : before.mayPoll maxPolls = false) :
      Moves maxPolls before .stop { before with producer := .finished }
  | fetchBatch (doc : FlightDocument real) (rest : Batch real)
      (polling : before.producer = .polling)
      (more : before.mayPoll maxPolls = true) :
      Moves maxPolls before (.fetch (.ok (doc :: rest)))
        { before with producer := .sending (doc :: rest) }
  | fetchNothing (outcome : Except String (Batch real))
      (nothing : ∀ batch, outcome = .ok batch → batch = [])
      (polling : before.producer = .polling)
      (more : before.mayPoll maxPolls = true) :
      Moves maxPolls before (.fetch outcome)
        { before with polls := before.polls + 1 }
  | abandon (batch : Batch real) (sending : before.producer = .sending batch)
      (gone : before.consumer = .finished) :
      Moves maxPolls before .send { before with producer := .finished }
  | send (batch : Batch real) (buffer : Channel 4 (Batch real))
      (sending : before.producer = .sending batch)
      (sent : before.buffer.send batch = some buffer) :
      Moves maxPolls before .send
        { before with
          polls := before.polls + 1
          producer := .polling
          buffer := buffer }
  | receive (batch : Batch real) (buffer : Channel 4 (Batch real))
      (receiving : before.consumer = .receiving)
      (received : before.buffer.receive = some (batch, buffer)) :
      Moves maxPolls before .receive
        { before with buffer := buffer, consumer := .indexing batch [] }
  | close (receiving : before.consumer = .receiving)
      (drained : before.buffer.receive = none)
      (dropped : before.producer = .finished) :
      Moves maxPolls before .receive { before with consumer := .finished }
  | keep (passes : Nat → Passes) (doc : FlightDocument real)
      (rest indexed : Batch real)
      (indexing : before.consumer = .indexing (doc :: rest) indexed)
      (owned : before.ownership.owns doc.icao24 = true) :
      Moves maxPolls before (.indexNext passes)
        { before with
          store := before.store.insertAll passes [doc]
          consumer := .indexing rest (collect before.outlet indexed doc) }
  | skip (passes : Nat → Passes) (doc : FlightDocument real)
      (rest indexed : Batch real)
      (indexing : before.consumer = .indexing (doc :: rest) indexed)
      (foreign : before.ownership.owns doc.icao24 = false) :
      Moves maxPolls before (.indexNext passes)
        { before with consumer := .indexing rest indexed }
  | releasePlain (indexed : Batch real)
      (indexing : before.consumer = .indexing [] indexed)
      (alone : before.outlet = .absent) :
      Moves maxPolls before .release { before with consumer := .receiving }
  | release (indexed : Batch real)
      (indexing : before.consumer = .indexing [] indexed)
      (replicated : before.outlet ≠ .absent) :
      Moves maxPolls before .release
        { before with consumer := .forwarding indexed }
  | forward (indexed : Batch real) (queue after : Channel 8 (Batch real))
      (forwarding : before.consumer = .forwarding indexed)
      (attached : before.outlet = .attached queue)
      (sent : queue.send indexed = some after) :
      Moves maxPolls before .forward
        { before with consumer := .receiving, outlet := .attached after }
  | discard (indexed : Batch real)
      (forwarding : before.consumer = .forwarding indexed)
      (gone : before.outlet = .detached) :
      Moves maxPolls before .forward { before with consumer := .receiving }
  | replaceView (table : List UInt32) :
      Moves maxPolls before (.replaceView table)
        { before with ownership := before.ownership.refresh table }
  | take (batch : Batch real) (queue after : Channel 8 (Batch real))
      (attached : before.outlet = .attached queue)
      (received : queue.receive = some (batch, after)) :
      Moves maxPolls before .take { before with outlet := .attached after }
  | detach (queue : Channel 8 (Batch real))
      (attached : before.outlet = .attached queue) :
      Moves maxPolls before .detach { before with outlet := .detached }

theorem moves_of_produce {maxPolls : Option Nat}
    {before after : Ingestion rules vectors} {event : IngestionEvent real}
    (stepped : before.produce maxPolls event = some after) :
    before.Moves maxPolls event after := by
  unfold produce at stepped
  split at stepped
  case h_1 =>
    split at stepped
    case h_1 polling =>
      split at stepped
      · cases stepped
      next limited =>
        cases stepped
        exact .stop polling (Bool.not_eq_true _ ▸ limited)
    · cases stepped
  case h_2 outcome =>
    split at stepped
    case h_1 polling =>
      split at stepped
      next more =>
        split at stepped
        · cases stepped
          exact .fetchBatch _ _ polling more
        next nothing =>
          cases stepped
          refine .fetchNothing _ ?_ polling more
          intro batch isBatch
          cases batch with
          | nil => rfl
          | cons doc rest => exact absurd isBatch (nothing doc rest)
      · cases stepped
    · cases stepped
  case h_3 =>
    split at stepped
    case h_1 sending gone =>
      cases stepped
      exact .abandon _ sending gone
    case h_2 sending alive =>
      obtain ⟨buffer, sent, same⟩ := Option.bind_eq_some_iff.mp stepped
      cases same
      exact .send _ _ sending sent
    · cases stepped
  · cases stepped

theorem moves_of_consume {maxPolls : Option Nat}
    {before after : Ingestion rules vectors} {event : IngestionEvent real}
    (stepped : before.consume event = some after) :
    before.Moves maxPolls event after := by
  unfold consume at stepped
  split at stepped
  case h_1 =>
    split at stepped
    case h_1 receiving =>
      split at stepped
      case h_1 received =>
        cases stepped
        exact .receive _ _ receiving received
      case h_2 drained =>
        split at stepped
        case h_1 dropped =>
          cases stepped
          exact .close receiving drained dropped
        · cases stepped
    · cases stepped
  case h_2 passes =>
    split at stepped
    case h_1 indexing =>
      split at stepped
      next owned =>
        cases stepped
        exact .keep passes _ _ _ indexing owned
      next foreign =>
        cases stepped
        exact .skip passes _ _ _ indexing (Bool.not_eq_true _ ▸ foreign)
    · cases stepped
  case h_3 =>
    split at stepped
    case h_1 indexing alone =>
      cases stepped
      exact .releasePlain _ indexing alone
    case h_2 indexing replicated =>
      cases stepped
      exact .release _ indexing (fun alone => replicated alone)
    · cases stepped
  case h_4 =>
    split at stepped
    case h_1 forwarding attached =>
      obtain ⟨queue, sent, same⟩ := Option.bind_eq_some_iff.mp stepped
      cases same
      exact .forward _ _ _ forwarding attached sent
    case h_2 forwarding gone =>
      cases stepped
      exact .discard _ forwarding gone
    · cases stepped
  · cases stepped

theorem moves_of_step {maxPolls : Option Nat}
    {before after : Ingestion rules vectors} {event : IngestionEvent real}
    (stepped : before.step maxPolls event = some after) :
    before.Moves maxPolls event after := by
  cases event with
  | stop => exact moves_of_produce stepped
  | fetch outcome => exact moves_of_produce stepped
  | send => exact moves_of_produce stepped
  | receive => exact moves_of_consume stepped
  | indexNext passes => exact moves_of_consume stepped
  | release => exact moves_of_consume stepped
  | forward => exact moves_of_consume stepped
  | replaceView table =>
      cases stepped
      exact .replaceView table
  | take =>
      simp only [step] at stepped
      split at stepped
      case h_1 attached =>
        obtain ⟨received, isReceived, same⟩ :=
          Option.bind_eq_some_iff.mp stepped
        cases same
        exact .take _ _ _ attached isReceived
      · cases stepped
  | detach =>
      simp only [step] at stepped
      split at stepped
      case h_1 attached =>
        cases stepped
        exact .detach _ attached
      · cases stepped

end Ingestion

/-! ## What a trace says -/

/-- The snapshots a trace fetched, in order. -/
def fetched : List (IngestionEvent real) → List (Batch real)
  | [] => []
  | .fetch (.ok (doc :: rest)) :: later => (doc :: rest) :: fetched later
  | _ :: later => fetched later

/-- How often a trace polled. -/
def pollCount : List (IngestionEvent real) → Nat
  | [] => 0
  | .fetch _ :: later => pollCount later + 1
  | _ :: later => pollCount later

/-- The placement in force at each document considered. -/
def inForce : Ownership → List (IngestionEvent real) → List Ownership
  | _, [] => []
  | ownership, .indexNext _ :: later => ownership :: inForce ownership later
  | ownership, .replaceView table :: later =>
      inForce (ownership.refresh table) later
  | ownership, _ :: later => inForce ownership later

/-- The placement a trace ends with. -/
def placementAfter (ownership : Ownership) :
    List (IngestionEvent real) → Ownership
  | [] => ownership
  | .replaceView table :: later =>
      placementAfter (ownership.refresh table) later
  | _ :: later => placementAfter ownership later

/-- The documents that pass, each under the placement in force for it. -/
def ownedUnder : List (FlightDocument real) → List Ownership →
    List (FlightDocument real)
  | doc :: docs, ownership :: later =>
      if ownership.owns doc.icao24 then doc :: ownedUnder docs later
      else ownedUnder docs later
  | _, _ => []

/-- The documents a trace kept: those fetched first, each considered once, under
the placement of the moment. -/
def keptDocs (ownership : Ownership) (events : List (IngestionEvent real)) :
    List (FlightDocument real) :=
  ownedUnder (fetched events).flatten (inForce ownership events)

/-- What a document map shows after documents are inserted in turn. -/
def insertDocs (docs : List (FlightDocument real))
    (found : Std.ExtTreeMap String (FlightDocument real)) :
    Std.ExtTreeMap String (FlightDocument real) :=
  upsertAll FlightDocument.icao24 docs found

@[simp]
theorem insertDocs_nil (found : Std.ExtTreeMap String (FlightDocument real)) :
    insertDocs [] found = found :=
  upsertAll_nil _ found

@[simp]
theorem insertDocs_append (first second : List (FlightDocument real))
    (found : Std.ExtTreeMap String (FlightDocument real)) :
    insertDocs (first ++ second) found =
      insertDocs second (insertDocs first found) :=
  upsertAll_append _ first second found

/-- Inserting the same documents once more changes nothing. -/
theorem insertDocs_idem (docs : List (FlightDocument real))
    (found : Std.ExtTreeMap String (FlightDocument real)) :
    insertDocs docs (insertDocs docs found) = insertDocs docs found :=
  upsertAll_idem _ docs found

theorem contents_insertAll {rules : TextRules} {vectors : VectorSide real}
    (passes : Nat → Passes) (docs : List (FlightDocument real))
    (store : HeldStore rules vectors) :
    (store.insertAll passes docs).contents = insertDocs docs store.contents :=
  HeldStore.contents_insertAll passes docs store

private theorem fetched_append (first second : List (IngestionEvent real)) :
    fetched (first ++ second) = fetched first ++ fetched second := by
  fun_induction fetched first with
  | case1 =>
      rfl
  | case2 doc rest later inductionHypothesis =>
      simp [fetched, inductionHypothesis]
  | case3 event later other inductionHypothesis =>
      rw [List.cons_append, fetched, inductionHypothesis]
      exact other

theorem pollCount_append (first second : List (IngestionEvent real)) :
    pollCount (first ++ second) = pollCount first + pollCount second := by
  fun_induction pollCount first with
  | case1 =>
      simp
  | case2 outcome later inductionHypothesis =>
      rw [List.cons_append, pollCount, inductionHypothesis]
      omega
  | case3 event later other inductionHypothesis =>
      rw [List.cons_append, pollCount, inductionHypothesis]
      exact other

private theorem placementAfter_append (ownership : Ownership)
    (first second : List (IngestionEvent real)) :
    placementAfter ownership (first ++ second) =
      placementAfter (placementAfter ownership first) second := by
  fun_induction placementAfter ownership first with
  | case1 =>
      rfl
  | case2 ownership table later inductionHypothesis =>
      rw [List.cons_append, placementAfter, inductionHypothesis]
  | case3 ownership event later other inductionHypothesis =>
      rw [List.cons_append, placementAfter, inductionHypothesis]
      exact other

theorem inForce_append (ownership : Ownership)
    (first second : List (IngestionEvent real)) :
    inForce ownership (first ++ second) =
      inForce ownership first ++
        inForce (placementAfter ownership first) second := by
  fun_induction inForce ownership first with
  | case1 =>
      rfl
  | case2 ownership passes later inductionHypothesis =>
      simp [inForce, placementAfter, inductionHypothesis]
  | case3 ownership table later inductionHypothesis =>
      simp [inForce, placementAfter, inductionHypothesis]
  | case4 ownership event later notIndexed notViewed inductionHypothesis =>
      rw [List.cons_append, inForce, placementAfter, inductionHypothesis]
      · exact notViewed
      · exact notIndexed
      · exact notViewed

private theorem ownedUnder_append {docs : List (FlightDocument real)}
    {verdicts : List Ownership} (paired : docs.length = verdicts.length)
    (more : List (FlightDocument real)) (later : List Ownership) :
    ownedUnder (docs ++ more) (verdicts ++ later) =
      ownedUnder docs verdicts ++ ownedUnder more later := by
  induction docs generalizing verdicts with
  | nil =>
      rw [List.eq_nil_of_length_eq_zero paired.symm]
      rfl
  | cons doc docs inductionHypothesis =>
      cases verdicts with
      | nil =>
          cases paired
      | cons ownership verdicts =>
          have shorter := Nat.succ.inj paired
          simp only [List.cons_append, ownedUnder,
            inductionHypothesis shorter]
          split
          · rfl
          · rfl

@[simp]
theorem ownedUnder_nil (docs : List (FlightDocument real)) :
    ownedUnder docs [] = [] := by
  cases docs with
  | nil => rfl
  | cons doc docs => rfl

/-! ## The account of the pipeline -/

namespace Ingestion

variable {rules : TextRules} {vectors : VectorSide real}

/-- The documents fetched and not considered yet, in order. -/
def ahead (ingestion : Ingestion rules vectors) :
    List (FlightDocument real) :=
  let beingIndexed :=
    match ingestion.consumer with
    | .indexing rest _ => rest
    | _ => []
  let inHand :=
    match ingestion.producer with
    | .sending batch => batch
    | _ => []
  beingIndexed ++ ingestion.buffer.waiting.flatten ++ inHand

/-- The indexing task ends after the polling loop and leaves nothing behind. -/
def EndsLast (ingestion : Ingestion rules vectors) : Prop :=
  ingestion.consumer = .finished →
    ingestion.producer = .finished ∧ ingestion.buffer.waiting = []

theorem EndsLast.moves {maxPolls : Option Nat}
    {before after : Ingestion rules vectors} {event : IngestionEvent real}
    (endsLast : before.EndsLast)
    (moves : before.Moves maxPolls event after) : after.EndsLast := by
  intro finished
  cases moves with
  | stop polling limited =>
      exact ⟨rfl, (endsLast finished).2⟩
  | fetchBatch doc rest polling more =>
      have dropped := (endsLast finished).1
      rw [polling] at dropped
      cases dropped
  | fetchNothing outcome nothing polling more =>
      exact endsLast finished
  | abandon batch sending gone =>
      exact ⟨rfl, (endsLast gone).2⟩
  | send batch buffer sending sent =>
      have dropped := (endsLast finished).1
      rw [sending] at dropped
      cases dropped
  | close receiving drained dropped =>
      exact ⟨dropped, Channel.receive_eq_none_iff.mp drained⟩
  | replaceView table => exact endsLast finished
  | take batch queue rest attached received => exact endsLast finished
  | detach queue attached => exact endsLast finished
  | receive | keep | skip | releasePlain | release | forward | discard =>
      cases finished

/-- The document a step keeps, if any. -/
def newlyKept (ingestion : Ingestion rules vectors) :
    IngestionEvent real → List (FlightDocument real)
  | .indexNext _ =>
      match ingestion.consumer with
      | .indexing (doc :: _) _ =>
          if ingestion.ownership.owns doc.icao24 then [doc] else []
      | _ => []
  | _ => []

theorem contents_moves {maxPolls : Option Nat}
    {before after : Ingestion rules vectors} {event : IngestionEvent real}
    (moves : before.Moves maxPolls event after) :
    after.store.contents =
      insertDocs (before.newlyKept event) before.store.contents := by
  cases moves with
  | keep passes doc rest indexed indexing owned =>
      simp [newlyKept, indexing, owned, contents_insertAll]
  | skip passes doc rest indexed indexing foreign =>
      simp [newlyKept, indexing, foreign]
  | _ =>
      rfl

/-- One step considers the first documents ahead. -/
theorem account_moves {maxPolls : Option Nat}
    {before after : Ingestion rules vectors} {event : IngestionEvent real}
    (endsLast : before.EndsLast)
    (moves : before.Moves maxPolls event after) :
    ∃ docs, before.ahead ++ (fetched [event]).flatten = docs ++ after.ahead ∧
      docs.length = (inForce before.ownership [event]).length ∧
      ownedUnder docs (inForce before.ownership [event]) =
        before.newlyKept event := by
  cases moves with
  | stop polling limited =>
      exact ⟨[], by simp [ahead, polling, fetched], rfl, rfl⟩
  | fetchBatch doc rest polling more =>
      exact ⟨[], by simp [ahead, polling, fetched], rfl, rfl⟩
  | fetchNothing outcome nothing polling more =>
      refine ⟨[], ?_, rfl, rfl⟩
      have unfetched : fetched [.fetch outcome] = ([] : List (Batch real)) := by
        cases outcome with
        | error message => rfl
        | ok batch =>
            rw [nothing batch rfl]
            rfl
      simp [ahead, polling, unfetched]
  | abandon batch sending gone =>
      have dropped := (endsLast gone).1
      rw [sending] at dropped
      cases dropped
  | send batch buffer sending sent =>
      refine ⟨[], ?_, rfl, rfl⟩
      simp [ahead, sending, Channel.waiting_send sent, fetched]
  | receive batch buffer receiving received =>
      refine ⟨[], ?_, rfl, rfl⟩
      simp [ahead, receiving, Channel.waiting_receive received, fetched]
  | close receiving drained dropped =>
      exact ⟨[], by simp [ahead, receiving, fetched], rfl, rfl⟩
  | keep passes doc rest indexed indexing owned =>
      refine ⟨[doc], ?_, rfl, ?_⟩
      · simp [ahead, indexing, fetched]
      · simp [inForce, ownedUnder, newlyKept, indexing]
  | skip passes doc rest indexed indexing foreign =>
      refine ⟨[doc], ?_, rfl, ?_⟩
      · simp [ahead, indexing, fetched]
      · simp [inForce, ownedUnder, newlyKept, indexing]
  | releasePlain indexed indexing alone =>
      exact ⟨[], by simp [ahead, indexing, fetched], rfl, rfl⟩
  | release indexed indexing replicated =>
      exact ⟨[], by simp [ahead, indexing, fetched], rfl, rfl⟩
  | forward indexed queue rest forwarding attached sent =>
      exact ⟨[], by simp [ahead, forwarding, fetched], rfl, rfl⟩
  | discard indexed forwarding gone =>
      exact ⟨[], by simp [ahead, forwarding, fetched], rfl, rfl⟩
  | replaceView table =>
      exact ⟨[], by simp [ahead, fetched], rfl, rfl⟩
  | take batch queue rest attached received =>
      exact ⟨[], by simp [ahead, fetched], rfl, rfl⟩
  | detach queue attached =>
      exact ⟨[], by simp [ahead, fetched], rfl, rfl⟩

/-- The state and the trace tell the same story. -/
structure Accounted (ownership : Ownership)
    (found : Std.ExtTreeMap String (FlightDocument real))
    (events : List (IngestionEvent real))
    (ingestion : Ingestion rules vectors) : Prop where
  endsLast : ingestion.EndsLast
  placement : ingestion.ownership = placementAfter ownership events
  considered : ∃ docs,
    (fetched events).flatten = docs ++ ingestion.ahead ∧
      docs.length = (inForce ownership events).length
  contents : ingestion.store.contents =
    insertDocs (keptDocs ownership events) found

/-- Documents ahead have no placement yet. -/
theorem keptDocs_eq {ownership : Ownership}
    {events : List (IngestionEvent real)}
    {docs later : List (FlightDocument real)}
    (split : (fetched events).flatten = docs ++ later)
    (paired : docs.length = (inForce ownership events).length) :
    keptDocs ownership events =
      ownedUnder docs (inForce ownership events) := by
  have unread := ownedUnder_append paired later []
  rw [List.append_nil, ownedUnder_nil, List.append_nil] at unread
  rw [keptDocs, split, unread]

private theorem placementAfter_moves {maxPolls : Option Nat}
    {before after : Ingestion rules vectors} {event : IngestionEvent real}
    (moves : before.Moves maxPolls event after) :
    after.ownership = placementAfter before.ownership [event] := by
  cases moves with
  | _ =>
      rfl

/-- A step adds what it keeps to what the trace kept. -/
theorem Accounted.keptDocs_concat {maxPolls : Option Nat}
    {ownership : Ownership}
    {found : Std.ExtTreeMap String (FlightDocument real)}
    {events : List (IngestionEvent real)}
    {before after : Ingestion rules vectors} {event : IngestionEvent real}
    (soFar : Accounted ownership found events before)
    (moves : before.Moves maxPolls event after) :
    keptDocs ownership (events ++ [event]) =
      keptDocs ownership events ++ before.newlyKept event := by
  obtain ⟨docs, split, paired⟩ := soFar.considered
  obtain ⟨more, moved, alsoPaired, kept⟩ :=
    account_moves soFar.endsLast moves
  have splitAfter : (fetched (events ++ [event])).flatten =
      (docs ++ more) ++ after.ahead := by
    rw [fetched_append, List.flatten_append, split, List.append_assoc, moved,
      List.append_assoc]
  have pairedAfter : (docs ++ more).length =
      (inForce ownership (events ++ [event])).length := by
    rw [List.length_append, inForce_append, List.length_append, paired,
      ← soFar.placement, alsoPaired]
  rw [keptDocs_eq splitAfter pairedAfter, keptDocs_eq split paired,
    inForce_append, ownedUnder_append paired, ← soFar.placement, kept]

theorem Accounted.moves {maxPolls : Option Nat} {ownership : Ownership}
    {found : Std.ExtTreeMap String (FlightDocument real)}
    {events : List (IngestionEvent real)}
    {before after : Ingestion rules vectors} {event : IngestionEvent real}
    (soFar : Accounted ownership found events before)
    (moves : before.Moves maxPolls event after) :
    Accounted ownership found (events ++ [event]) after := by
  obtain ⟨docs, split, paired⟩ := soFar.considered
  obtain ⟨more, moved, alsoPaired, -⟩ := account_moves soFar.endsLast moves
  refine ⟨soFar.endsLast.moves moves, ?_, ⟨docs ++ more, ?_, ?_⟩, ?_⟩
  · rw [placementAfter_moves moves, soFar.placement, placementAfter_append]
  · rw [fetched_append, List.flatten_append, split, List.append_assoc, moved,
      List.append_assoc]
  · rw [List.length_append, inForce_append, List.length_append, paired,
      ← soFar.placement, alsoPaired]
  · rw [soFar.keptDocs_concat moves, insertDocs_append, ← soFar.contents,
      contents_moves moves]

theorem accounted_begin (ownership : Ownership)
    (store : HeldStore rules vectors) (outlet : Outlet real) :
    Accounted ownership store.contents [] (begin ownership store outlet) := by
  refine ⟨?_, rfl, ⟨[], rfl, rfl⟩, rfl⟩
  intro finished
  cases finished

theorem accounted {maxPolls : Option Nat} {ownership : Ownership}
    {store : HeldStore rules vectors} {outlet : Outlet real}
    {events : List (IngestionEvent real)} {ingestion : Ingestion rules vectors}
    (leads : Leads (step maxPolls) (begin ownership store outlet) events
      ingestion) :
    Accounted ownership store.contents events ingestion := by
  refine leads.invariant _ (accounted_begin ownership store outlet) ?_
  intro events current event reached soFar stepped
  exact soFar.moves (moves_of_step stepped)

/-- In every order of the two tasks' steps, the documents fetched are those
considered, in order and each under the placement of its moment, followed by
those in hand or waiting; the store shows what was owned; and nothing is ahead
once the indexing task has ended. -/
theorem ingestion_accounts_for_every_document (maxPolls : Option Nat)
    (ownership : Ownership) (store : HeldStore rules vectors)
    (outlet : Outlet real) (events : List (IngestionEvent real))
    (ingestion : Ingestion rules vectors)
    (leads : Leads (step maxPolls) (begin ownership store outlet) events
      ingestion) :
    (∃ considered,
      (fetched events).flatten = considered ++ ingestion.ahead ∧
        considered.length = (inForce ownership events).length ∧
        ingestion.store.contents =
          insertDocs (keptDocs ownership events) store.contents) ∧
      (ingestion.consumer = .finished → ingestion.ahead = []) := by
  obtain ⟨endsLast, -, ⟨docs, split, paired⟩, shown⟩ := accounted leads
  refine ⟨⟨docs, split, paired, shown⟩, ?_⟩
  intro finished
  obtain ⟨dropped, drained⟩ := endsLast finished
  simp [ahead, finished, dropped, drained]

/-! ### One snapshot of two aircraft -/

section OneSnapshot

open GroupLeader.Roundtrip

/-- The first of the two documents is indexed. -/
def halfway : List (IngestionEvent Nat) :=
  [.fetch (.ok [sighting "a1", sighting "b2"]), .send, .receive,
    .indexNext passes]

def atHalfway : Ingestion asciiText noVectors where
  polls := 1
  producer := .polling
  buffer := .empty
  consumer := .indexing [sighting "b2"] []
  ownership := .all
  store := HeldStore.new.insertAll passes [sighting "a1"]
  outlet := .absent

theorem ingestion_accounts_for_every_document_halfway :
    (∃ considered,
      [sighting "a1", sighting "b2"] = considered ++ [sighting "b2"] ∧
        considered.length = 1 ∧
        atHalfway.store.contents =
          insertDocs [sighting "a1"] ∅) ∧
      (atHalfway.consumer = .finished → [sighting "b2"] = []) :=
  ingestion_accounts_for_every_document (some 1) .all .new .absent halfway
    atHalfway rfl

end OneSnapshot

/-! ## What replication has not taken -/

/-- The documents indexed and not taken by the replication task, in order. -/
def outstanding (ingestion : Ingestion rules vectors) :
    List (FlightDocument real) :=
  let queued :=
    match ingestion.outlet with
    | .attached queue => queue.waiting.flatten
    | _ => []
  let collected :=
    match ingestion.consumer with
    | .indexing _ indexed => indexed
    | .forwarding indexed => indexed
    | _ => []
  queued ++ collected

/-- As long as the channel is attached, what a step keeps comes last in it. -/
theorem outstanding_moves {maxPolls : Option Nat}
    {before after : Ingestion rules vectors} {event : IngestionEvent real}
    (moves : before.Moves maxPolls event after)
    (attached : ∃ queue, before.outlet = .attached queue)
    (keepsQueue : event ≠ .take ∧ event ≠ .detach) :
    (∃ queue, after.outlet = .attached queue) ∧
      after.outstanding = before.outstanding ++ before.newlyKept event := by
  obtain ⟨queue, isAttached⟩ := attached
  cases moves with
  | stop polling limited =>
      exact ⟨⟨queue, isAttached⟩, by simp [outstanding, newlyKept]⟩
  | fetchBatch doc rest polling more =>
      exact ⟨⟨queue, isAttached⟩, by simp [outstanding, newlyKept]⟩
  | fetchNothing outcome nothing polling more =>
      exact ⟨⟨queue, isAttached⟩, by simp [outstanding, newlyKept]⟩
  | abandon batch sending gone =>
      exact ⟨⟨queue, isAttached⟩, by simp [outstanding, newlyKept]⟩
  | send batch buffer sending sent =>
      exact ⟨⟨queue, isAttached⟩, by simp [outstanding, newlyKept]⟩
  | replaceView table =>
      exact ⟨⟨queue, isAttached⟩, by simp [outstanding, newlyKept]⟩
  | receive batch buffer receiving received =>
      exact ⟨⟨queue, isAttached⟩, by simp [outstanding, newlyKept, receiving]⟩
  | close receiving drained dropped =>
      exact ⟨⟨queue, isAttached⟩, by simp [outstanding, newlyKept, receiving]⟩
  | keep passes doc rest indexed indexing owned =>
      refine ⟨⟨queue, isAttached⟩, ?_⟩
      simp [outstanding, newlyKept, indexing, owned, isAttached, collect]
  | skip passes doc rest indexed indexing foreign =>
      refine ⟨⟨queue, isAttached⟩, ?_⟩
      simp [outstanding, newlyKept, indexing, foreign]
  | releasePlain indexed indexing alone =>
      rw [isAttached] at alone
      cases alone
  | release indexed indexing replicated =>
      refine ⟨⟨queue, isAttached⟩, ?_⟩
      simp [outstanding, newlyKept, indexing]
  | forward indexed found rest forwarding attached sent =>
      refine ⟨⟨rest, rfl⟩, ?_⟩
      simp [outstanding, newlyKept, forwarding, attached,
        Channel.waiting_send sent]
  | discard indexed forwarding gone =>
      rw [isAttached] at gone
      cases gone
  | take batch found rest attached received => exact absurd rfl keepsQueue.1
  | detach found attached => exact absurd rfl keepsQueue.2

end Ingestion

end AetherEngine.Shard
