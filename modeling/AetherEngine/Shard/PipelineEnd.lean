import AetherEngine.Shard.Pipeline

/-!
# Bounded ingestions end

With a poll limit the two tasks of the pipeline run out of steps: every step is
paid for by a poll or by a document.  They come to rest only when both are over,
provided the replication channel has room.
-/

namespace AetherEngine.Shard

open AetherEngine.Channels
open AetherEngine.Common
open AetherEngine.Ranking
open AetherEngine.Traces

variable {real : Type}

namespace Ingestion

variable {rules : TextRules} {vectors : VectorSide real}

/-! ## The steps left -/

/-- Steps of the two tasks cost one; the placement view and the replication
task step at their own pace. -/
def taskCost : IngestionEvent real → Nat
  | .replaceView _ | .take | .detach => 0
  | _ => 1

/-- How many documents an event fetches. -/
def fetchedCount : IngestionEvent real → Nat
  | .fetch (.ok batch) => batch.length
  | _ => 0

private theorem sum_fetchedCount (events : List (IngestionEvent real)) :
    (events.map fetchedCount).sum = (fetched events).flatten.length := by
  fun_induction fetched events with
  | case1 =>
      rfl
  | case2 doc rest later inductionHypothesis =>
      simp only [List.map_cons, List.sum_cons, fetchedCount,
        inductionHypothesis, List.flatten_cons, List.length_append]
  | case3 event later other inductionHypothesis =>
      rw [List.map_cons, List.sum_cons, inductionHypothesis]
      cases event with
      | fetch outcome =>
          cases outcome with
          | error message => simp [fetchedCount]
          | ok batch =>
              cases batch with
              | nil => simp [fetchedCount]
              | cons doc rest => exact absurd rfl (other doc rest)
      | _ => simp [fetchedCount]

/-- How many more steps the two tasks can take without fetching documents. -/
def stepsLeft (limit : Nat) (ingestion : Ingestion rules vectors) : Nat :=
  let producing :=
    match ingestion.producer with
    | .polling => 5 * (limit - ingestion.polls) + 1
    | .sending batch => 5 * (limit - ingestion.polls - 1) + 5 + batch.length
    | .finished => 0
  let waiting :=
    (ingestion.buffer.waiting.map (fun batch => batch.length + 3)).sum
  let consuming :=
    match ingestion.consumer with
    | .receiving => 1
    | .indexing rest _ => rest.length + 3
    | .forwarding _ => 2
    | .finished => 0
  producing + waiting + consuming

theorem mayPoll_some (limit : Nat) (ingestion : Ingestion rules vectors) :
    ingestion.mayPoll (some limit) = decide (ingestion.polls < limit) :=
  rfl

/-- Every step of a task uses up one of the steps left. -/
theorem stepsLeft_moves {limit : Nat}
    {before after : Ingestion rules vectors} {event : IngestionEvent real}
    (moves : before.Moves (some limit) event after) :
    after.stepsLeft limit + taskCost event ≤
      before.stepsLeft limit + fetchedCount event := by
  cases moves with
  | stop polling limited =>
      simp only [stepsLeft, polling, taskCost, fetchedCount]
      omega
  | fetchBatch doc rest polling more =>
      rw [mayPoll_some, decide_eq_true_eq] at more
      simp only [stepsLeft, polling, taskCost, fetchedCount, List.length_cons]
      omega
  | fetchNothing outcome nothing polling more =>
      rw [mayPoll_some, decide_eq_true_eq] at more
      simp only [stepsLeft, polling, taskCost]
      omega
  | abandon batch sending gone =>
      simp only [stepsLeft, sending, taskCost, fetchedCount]
      omega
  | send batch buffer sending sent =>
      simp only [stepsLeft, sending, taskCost, fetchedCount,
        Channel.waiting_send sent, List.map_append, List.sum_append,
        List.map_cons, List.map_nil, List.sum_cons, List.sum_nil]
      omega
  | receive batch buffer receiving received =>
      simp only [stepsLeft, receiving, taskCost, fetchedCount,
        Channel.waiting_receive received, List.map_cons, List.sum_cons]
      omega
  | close receiving drained dropped =>
      simp only [stepsLeft, receiving, taskCost, fetchedCount]
      omega
  | keep passes doc rest indexed indexing owned =>
      simp only [stepsLeft, indexing, taskCost, fetchedCount, List.length_cons]
      omega
  | skip passes doc rest indexed indexing foreign =>
      simp only [stepsLeft, indexing, taskCost, fetchedCount, List.length_cons]
      omega
  | releasePlain indexed indexing alone =>
      simp only [stepsLeft, indexing, taskCost, fetchedCount, List.length_nil]
      omega
  | release indexed indexing replicated =>
      simp only [stepsLeft, indexing, taskCost, fetchedCount, List.length_nil]
      omega
  | forward indexed queue rest forwarding attached sent =>
      simp only [stepsLeft, forwarding, taskCost, fetchedCount]
      omega
  | discard indexed forwarding gone =>
      simp only [stepsLeft, forwarding, taskCost, fetchedCount]
      omega
  | replaceView | take | detach => exact Nat.le_refl _

/-! ## The polls begun -/

/-- The polls begun: those counted, and the one whose snapshot is in hand. -/
def pollsBegun (ingestion : Ingestion rules vectors) : Nat :=
  match ingestion.producer with
  | .sending _ => ingestion.polls + 1
  | _ => ingestion.polls

/-- The polls begun are the polls of the trace and never exceed the limit;
indexed documents are in hand only where there is a replication channel. -/
structure Counted (limit : Nat) (events : List (IngestionEvent real))
    (ingestion : Ingestion rules vectors) : Prop where
  tallied : pollCount events = ingestion.pollsBegun
  limited : ingestion.pollsBegun ≤ limit
  stopped : ingestion.producer = .finished → ingestion.polls = limit
  replicated : ∀ indexed, ingestion.consumer = .forwarding indexed →
    ingestion.outlet ≠ .absent

/-- A step that leaves polling and forwarding alone leaves the counts alone. -/
theorem Counted.of_idle {limit : Nat} {events : List (IngestionEvent real)}
    {before after : Ingestion rules vectors} {event : IngestionEvent real}
    (counted : Counted limit events before) (idle : pollCount [event] = 0)
    (samePolls : after.polls = before.polls)
    (sameProducer : after.producer = before.producer)
    (replicated : ∀ indexed, after.consumer = .forwarding indexed →
      after.outlet ≠ .absent) :
    Counted limit (events ++ [event]) after := by
  have sameBegun : after.pollsBegun = before.pollsBegun := by
    rw [pollsBegun, pollsBegun, samePolls, sameProducer]
  refine ⟨?_, ?_, ?_, replicated⟩
  · rw [pollCount_append, idle, sameBegun, Nat.add_zero, counted.tallied]
  · rw [sameBegun]
    exact counted.limited
  · rw [sameProducer, samePolls]
    exact counted.stopped

theorem Counted.moves {limit : Nat} {events : List (IngestionEvent real)}
    {before after : Ingestion rules vectors} {event : IngestionEvent real}
    (counted : Counted limit events before) (endsLast : before.EndsLast)
    (moves : before.Moves (some limit) event after) :
    Counted limit (events ++ [event]) after := by
  obtain ⟨tallied, limited, stopped, replicated⟩ := counted
  cases moves with
  | stop polling spent =>
      rw [mayPoll_some, decide_eq_false_iff_not] at spent
      simp only [pollsBegun, polling] at tallied limited
      refine ⟨?_, limited, fun _ => by dsimp only; omega, replicated⟩
      rw [pollCount_append, tallied]
      rfl
  | fetchBatch doc rest polling more =>
      rw [mayPoll_some, decide_eq_true_eq] at more
      simp only [pollsBegun, polling] at tallied
      refine ⟨?_, more, ?_, replicated⟩
      · rw [pollCount_append, tallied]
        rfl
      · intro finished
        cases finished
  | fetchNothing outcome nothing polling more =>
      rw [mayPoll_some, decide_eq_true_eq] at more
      simp only [pollsBegun, polling] at tallied
      refine ⟨?_, ?_, ?_, replicated⟩
      · rw [pollCount_append, tallied]
        simp [pollsBegun, polling, pollCount]
      · simp only [pollsBegun, polling]
        omega
      · rw [polling]
        intro finished
        cases finished
  | abandon batch sending gone =>
      have dropped := (endsLast gone).1
      rw [sending] at dropped
      cases dropped
  | send batch buffer sending sent =>
      simp only [pollsBegun, sending] at tallied limited
      refine ⟨?_, limited, ?_, replicated⟩
      · rw [pollCount_append, tallied]
        rfl
      · intro finished
        cases finished
  | release indexed indexing attached =>
      exact .of_idle ⟨tallied, limited, stopped, replicated⟩ rfl rfl rfl
        (fun _ _ => attached)
  | forward | receive | close | keep | skip | releasePlain | discard =>
      refine .of_idle ⟨tallied, limited, stopped, replicated⟩ rfl rfl rfl ?_
      intro indexed forwarding
      cases forwarding
  | replaceView table =>
      exact .of_idle ⟨tallied, limited, stopped, replicated⟩ rfl rfl rfl
        replicated
  | take | detach =>
      refine .of_idle ⟨tallied, limited, stopped, replicated⟩ rfl rfl rfl ?_
      intro indexed forwarding absent
      cases absent

theorem counted {limit : Nat} {ownership : Ownership}
    {store : HeldStore rules vectors} {outlet : Outlet real}
    {events : List (IngestionEvent real)} {ingestion : Ingestion rules vectors}
    (leads : Leads (step (some limit)) (begin ownership store outlet) events
      ingestion) :
    Counted limit events ingestion := by
  have both := leads.invariant
    (fun events current => Counted limit events current ∧ current.EndsLast)
    ?_ ?_
  · exact both.1
  · refine ⟨⟨rfl, Nat.zero_le limit, ?_, ?_⟩, ?_⟩
    · intro finished
      cases finished
    · intro indexed forwarding
      cases forwarding
    · intro finished
      cases finished
  · intro events current event reached soFar stepped
    have moves := moves_of_step stepped
    exact ⟨soFar.1.moves soFar.2 moves, soFar.2.moves moves⟩

/-! ## Rest -/

/-- No step of the two tasks is enabled. -/
def Quiet (maxPolls : Option Nat) (ingestion : Ingestion rules vectors) :
    Prop :=
  ∀ event, taskCost event = 1 → ingestion.step maxPolls event = none

/-- The replication channel has room, or there is none to wait for. -/
def OutletReady (ingestion : Ingestion rules vectors) : Prop :=
  ∀ queue, ingestion.outlet = .attached queue → queue.waiting.length < 8

/-- The tasks come to rest only when both are over. -/
theorem finished_of_quiet {maxPolls : Option Nat}
    {ingestion : Ingestion rules vectors} (quiet : ingestion.Quiet maxPolls)
    (ready : ingestion.OutletReady)
    (replicated : ∀ indexed, ingestion.consumer = .forwarding indexed →
      ingestion.outlet ≠ .absent) :
    ingestion.consumer = .finished := by
  cases consuming : ingestion.consumer with
  | finished =>
      rfl
  | receiving =>
      have unreceived := quiet .receive rfl
      cases received : ingestion.buffer.receive with
      | some taken =>
          simp [step, consume, consuming, received] at unreceived
      | none =>
          have drained := Channel.receive_eq_none_iff.mp received
          cases producing : ingestion.producer with
          | polling =>
              cases more : ingestion.mayPoll maxPolls with
              | true =>
                  have unfetched := quiet (.fetch (.ok [])) rfl
                  simp [step, produce, producing, more] at unfetched
              | false =>
                  have unstopped := quiet .stop rfl
                  simp [step, produce, producing, more] at unstopped
          | sending batch =>
              have unsent := quiet .send rfl
              cases sent : ingestion.buffer.send batch with
              | some buffer =>
                  simp [step, produce, producing, consuming, sent] at unsent
              | none =>
                  rw [Channel.send_eq_none_iff, drained] at sent
                  cases sent
          | finished =>
              simp [step, consume, consuming, received, producing]
                at unreceived
  | indexing rest indexed =>
      cases rest with
      | cons doc rest =>
          have unindexed := quiet (.indexNext fun _ => ⟨.asStored, .asStored⟩) rfl
          simp [step, consume, consuming] at unindexed
          split at unindexed <;> cases unindexed
      | nil =>
          have unreleased := quiet .release rfl
          cases attached : ingestion.outlet with
          | absent =>
              simp [step, consume, consuming, attached] at unreleased
          | attached queue =>
              simp [step, consume, consuming, attached] at unreleased
          | detached =>
              simp [step, consume, consuming, attached] at unreleased
  | forwarding indexed =>
      have unforwarded := quiet .forward rfl
      cases attached : ingestion.outlet with
      | absent =>
          exact absurd attached (replicated indexed consuming)
      | attached queue =>
          cases sent : queue.send indexed with
          | some after =>
              simp [step, consume, consuming, attached, sent] at unforwarded
          | none =>
              rw [Channel.send_eq_none_iff] at sent
              have room := ready queue attached
              omega
      | detached =>
          simp [step, consume, consuming, attached] at unforwarded

/-- A bounded ingestion takes no more steps than its polls and documents pay
for, and comes to rest only when it is over: it has then polled exactly as often
as it may, considered every document it fetched, and the store shows those it
owned. -/
theorem bounded_ingestion_completes (limit : Nat) (ownership : Ownership)
    (store : HeldStore rules vectors) (outlet : Outlet real)
    (events : List (IngestionEvent real)) (ingestion : Ingestion rules vectors)
    (leads : Leads (step (some limit)) (begin ownership store outlet) events
      ingestion) :
    (events.map taskCost).sum ≤
        5 * limit + 2 + (fetched events).flatten.length ∧
      (ingestion.Quiet (some limit) → ingestion.OutletReady →
        ingestion.consumer = .finished ∧ pollCount events = limit ∧
          (inForce ownership events).length =
            (fetched events).flatten.length ∧
          ingestion.store.contents =
            insertDocs (keptDocs ownership events) store.contents) := by
  constructor
  · have paid := leads.cost_le (stepsLeft limit) taskCost fetchedCount
      (fun _ _ _ stepped => stepsLeft_moves (moves_of_step stepped))
    rw [sum_fetchedCount] at paid
    simp only [begin, stepsLeft, Channel.waiting_empty, List.map_nil,
      List.sum_nil] at paid
    omega
  · intro quiet ready
    obtain ⟨tallied, limited, stopped, replicated⟩ := counted leads
    obtain ⟨endsLast, -, ⟨docs, split, paired⟩, shown⟩ := accounted leads
    have finished := finished_of_quiet quiet ready replicated
    obtain ⟨dropped, drained⟩ := endsLast finished
    have nothingAhead : ingestion.ahead = [] := by
      simp [ahead, finished, dropped, drained]
    rw [nothingAhead, List.append_nil] at split
    simp only [pollsBegun, dropped] at tallied
    refine ⟨finished, tallied.trans (stopped dropped), ?_, shown⟩
    rw [split, paired]

section OneSnapshot

open GroupLeader.Roundtrip

/-- Both documents are indexed and the tasks end. -/
def wholeRun : List (IngestionEvent Nat) :=
  halfway ++ [.stop, .indexNext passes, .release, .receive]

def atEnd : Ingestion asciiText noVectors where
  polls := 1
  producer := .finished
  buffer := .empty
  consumer := .finished
  ownership := .all
  store := (HeldStore.new.insertAll passes [sighting "a1"]).insertAll passes
    [sighting "b2"]
  outlet := .absent

private theorem quiet_atEnd : atEnd.Quiet (some 1) := by
  intro event costs
  cases event with
  | replaceView table => cases costs
  | take => cases costs
  | detach => cases costs
  | stop | fetch | send | receive | indexNext | release | forward => rfl

private theorem outletReady_atEnd : atEnd.OutletReady := by
  intro queue attached
  cases attached

theorem bounded_ingestion_completes_wholeRun :
    (wholeRun.map taskCost).sum ≤ 9 ∧
      atEnd.store.contents =
        insertDocs [sighting "a1", sighting "b2"] ∅ := by
  obtain ⟨paid, complete⟩ := bounded_ingestion_completes 1 .all .new .absent
    wholeRun atEnd rfl
  exact ⟨paid, (complete quiet_atEnd outletReady_atEnd).2.2.2⟩

end OneSnapshot

end Ingestion

end AetherEngine.Shard
