import AetherEngine.Coordinator.Merging
import AetherEngine.Coordinator.Service
import AetherEngine.Shard.Server
import Mathlib.Algebra.Order.Ring.Unbundled.Rat

/-!
# Searching while a virtual shard moves

While a virtual shard moves, two groups hold copies of its aircraft and the
coordinator keeps the freshest copy it is sent.  Each shard filters and cuts
before it answers, so the freshest copy may never be sent: it may lie beyond
the shard's limit or fail the filter, while an older copy elsewhere gets
through.  The two theorems say exactly when that does not show.
-/

namespace AetherEngine.Coordinator

open AetherEngine.Common
open AetherEngine.Ranking
open AetherEngine.Shard

variable {real : Type} {vectors : VectorSide real}

/-! ## A cluster of shards -/

/-- A shard that answers queries: its service and the documents its store
holds. -/
structure AnsweringShard (rules : TextRules) (vectors : VectorSide real) where
  service : ShardSearchService real vectors
  documents : Std.ExtTreeMap String (FlightDocument real)
  holds : service.store.Holds rules documents
  order : IterationOrder (Nat × real)

/-- How a task ends that gets no answer. -/
inductive Failure where
  | unreachable
  | timedOut
  | panicked
deriving DecidableEq, Repr

def Failure.attempt {α : Type} : Failure → Attempt α
  | unreachable => .unreachable
  | timedOut => .timedOut
  | panicked => .panicked

/-- The shard the `n`th task of a fan-out reaches, or how the task fails. -/
structure Cluster (rules : TextRules) (vectors : VectorSide real) where
  reached : Nat → String → Except Failure (AnsweringShard rules vectors)
  /-- How calls other than keyword search end. -/
  otherCalls : Network real

variable [LinearOrder real] {rules : TextRules}

namespace AnsweringShard

/-- Every document of the shard that matches the query and passes the filter,
best first. -/
def matching (arith : Arithmetic real) (floats : FloatRules real)
    (shard : AnsweringShard rules vectors) (query : String)
    (filter : Option (Common.Filter real)) : List (SearchHit real) :=
  shard.service.matching rules arith floats shard.documents query filter

/-- The shard's reply to an accepted request. -/
def reply (arith : Arithmetic real) (floats : FloatRules real)
    (shard : AnsweringShard rules vectors) (request : SearchRequest real) :
    SearchResponse real where
  hits := truncate request.limit.toNat
    (shard.matching arith floats request.query request.filter)
  totalMatched := (shard.matching arith floats request.query
    request.filter).length.toUInt64
  shardId := shard.service.shardId
  shardsQueried := 0
  shardsAnswered := 0
  manifest := none

end AnsweringShard

namespace Cluster

/-- A network whose leaders answer as the shards' search handler does. -/
def network (arith : Arithmetic real) (floats : FloatRules real)
    (cluster : Cluster rules vectors) : Network real :=
  { cluster.otherCalls with
    search := fun number address request =>
      match cluster.reached number address with
      | .error failure => failure.attempt
      | .ok shard =>
          match shard.service.search rules arith floats shard.order
            request with
          | some outcome => .answered outcome
          | none => .unreachable }

/-- The shards that answer a query, in the order their answers arrive. -/
def answering (cluster : Cluster rules vectors)
    (service : CoordinatorService) (call : QueryCall real) :
    List (AnsweringShard rules vectors) :=
  (call.arrival.arrange
    (service.registry.leaderAddresses call.leaders).zipIdx).filterMap
      (fun task => (cluster.reached task.2 task.1).toOption)

private theorem responses_scatterGather (arith : Arithmetic real)
    (cluster : Cluster rules vectors) (arrival : IterationOrder (String × Nat))
    {floats : FloatRules real} {request : SearchRequest real}
    (accepted : checkFilter floats request.filter = .ok ())
    (leaders : List String) :
    (scatterGather arrival
        (fun number address =>
          (cluster.network arith floats).search number address request)
        leaders).responses =
      ((arrival.arrange leaders.zipIdx).filterMap
        (fun task => (cluster.reached task.2 task.1).toOption)).map
          (fun shard => shard.reply arith floats request) := by
  rw [scatterGather, joinAll, List.filterMap_map, List.map_filterMap]
  apply List.filterMap_congr
  intro target _
  rcases target with ⟨address, number⟩
  cases reached : cluster.reached number address with
  | error failure =>
      cases failure <;>
        simp [network, reached, Failure.attempt, Attempt.joined, answerOf,
          Except.toOption]
  | ok shard =>
      have answered := ShardSearchService.search_eq shard.holds arith
        shard.order accepted
      simp [network, reached, answered, Attempt.joined, answerOf,
        Except.toOption, AnsweringShard.reply, AnsweringShard.matching]

/-- A search merges the replies of the shards that answer. -/
theorem search_eq (arith : Arithmetic real) (cluster : Cluster rules vectors)
    (service : CoordinatorService) (call : QueryCall real)
    (floats : FloatRules real) {authorization : Option String}
    (request : SearchRequest real)
    (authorized : service.auth.require authorization .read = .ok ())
    (accepted : checkFilter floats request.filter = .ok ()) :
    ∃ circumstances : MergeCall real,
      (service.search floats (cluster.network arith floats) call authorization
          request).outcome =
        .ok (circumstances.merge
          ((cluster.answering service call).map
            (fun shard => shard.reply arith floats request))
          request.limit.toNat) := by
  have responses := responses_scatterGather arith cluster call.arrival
    accepted (service.registry.leaderAddresses call.leaders)
  rw [answering, ← responses]
  simp only [CoordinatorService.search, admitted, authorized, accepted]
  exact ⟨⟨call.order 0, _, _, _, _⟩, rfl⟩

end Cluster

/-! ## The limit and the freshest copy -/

/-- The copies that match a request, wherever they rank. -/
def heldCopies (arith : Arithmetic real) (floats : FloatRules real)
    (shards : List (AnsweringShard rules vectors))
    (request : SearchRequest real) : List (String × (Int ×ₗ real)) :=
  shards.flatMap (fun shard =>
    (shard.matching arith floats request.query request.filter).map copyOf)

/-- The copies within the limit of their shard. -/
def sentCopies (arith : Arithmetic real) (floats : FloatRules real)
    (shards : List (AnsweringShard rules vectors))
    (request : SearchRequest real) : List (String × (Int ×ₗ real)) :=
  shards.flatMap (fun shard =>
    (truncate request.limit.toNat
      (shard.matching arith floats request.query request.filter)).map copyOf)

/-- Every hit shown carries the freshest matching observation of its aircraft
that an answering shard holds. -/
def ShowsFreshest (arith : Arithmetic real) (floats : FloatRules real)
    (shards : List (AnsweringShard rules vectors))
    (request : SearchRequest real) (response : SearchResponse real) : Prop :=
  ∀ hit ∈ response.hits, ∀ shard ∈ shards,
    ∀ other ∈ shard.matching arith floats request.query request.filter,
      icao24Of other = icao24Of hit → observedAtOf other ≤ observedAtOf hit

/-- An aircraft with a fresher match than the copies within the limits of their
shards has `limit` aircraft ahead of it. -/
def StaleStaysOut (arith : Arithmetic real) (floats : FloatRules real)
    (shards : List (AnsweringShard rules vectors))
    (request : SearchRequest real) : Prop :=
  request.limit.toNat = 0 ∨
    ∀ sent, IsBest (sentCopies arith floats shards request) sent →
      (∃ held ∈ heldCopies arith floats shards request,
        held.1 = sent.1 ∧ (ofLex sent.2).1 < (ofLex held.2).1) →
      request.limit.toNat ≤
        rivals byScore (sentCopies arith floats shards request) sent

theorem copiesOf_replies (arith : Arithmetic real) (floats : FloatRules real)
    (shards : List (AnsweringShard rules vectors))
    (request : SearchRequest real) :
    copiesOf (shards.map (fun shard => shard.reply arith floats request)) =
      sentCopies arith floats shards request := by
  rw [copiesOf_eq_flatten, List.map_map, sentCopies, List.flatMap_def]
  rfl

theorem sentCopies_of_unlimited (arith : Arithmetic real)
    (floats : FloatRules real) (shards : List (AnsweringShard rules vectors))
    {request : SearchRequest real} (unlimited : request.limit.toNat = 0) :
    sentCopies arith floats shards request =
      heldCopies arith floats shards request := by
  simp only [sentCopies, heldCopies, unlimited, truncate_zero]

/-- Whether the freshest copies are shown can be read off the copies shown. -/
theorem showsFreshest_iff_copies (arith : Arithmetic real)
    (floats : FloatRules real) (shards : List (AnsweringShard rules vectors))
    (request : SearchRequest real) (response : SearchResponse real) :
    ShowsFreshest arith floats shards request response ↔
      ∀ copy ∈ response.hits.map copyOf,
        ∀ held ∈ heldCopies arith floats shards request,
          held.1 = copy.1 → (ofLex held.2).1 ≤ (ofLex copy.2).1 := by
  simp only [ShowsFreshest, heldCopies, List.mem_flatMap, List.mem_map]
  constructor
  · intro fresh copy shown held holding
    rcases shown with ⟨hit, member, rfl⟩
    rcases holding with ⟨shard, shardMember, other, found, rfl⟩
    exact fresh hit member shard shardMember other found
  · intro fresh hit member shard shardMember other found
    exact fresh (copyOf hit) ⟨hit, member, rfl⟩ (copyOf other)
      ⟨shard, shardMember, other, found, rfl⟩

omit [LinearOrder real] in
theorem time_le_of_le [LinearOrder real] {first second : Int ×ₗ real}
    (below : first ≤ second) : (ofLex first).1 ≤ (ofLex second).1 := by
  rcases Prod.Lex.le_iff.mp below with earlier | ⟨same, -⟩
  · exact earlier.le
  · exact same.le

/-- The coordinator shows the freshest matching observation of every aircraft
exactly when every aircraft whose freshest match was left behind by its shard's
limit stays behind the limit of the merged ranking too. -/
theorem showsFreshest_iff (arith : Arithmetic real)
    (cluster : Cluster rules vectors) (service : CoordinatorService)
    (call : QueryCall real) (floats : FloatRules real)
    (authorization : Option String) (request : SearchRequest real)
    (authorized : service.auth.require authorization .read = .ok ())
    (accepted : checkFilter floats request.filter = .ok ()) :
    ∃ response,
      (service.search floats (cluster.network arith floats) call authorization
        request).outcome = .ok response ∧
      (ShowsFreshest arith floats (cluster.answering service call) request
          response ↔
        StaleStaysOut arith floats (cluster.answering service call)
          request) := by
  obtain ⟨circumstances, answered⟩ :=
    cluster.search_eq arith service call floats request authorized accepted
  refine ⟨_, answered, ?_⟩
  generalize cluster.answering service call = shards
  rw [showsFreshest_iff_copies, MergeCall.copies_merge, copiesOf_replies]
  by_cases unlimited : request.limit.toNat = 0
  · rw [unlimited, truncate_zero]
    refine iff_of_true ?_ (Or.inl unlimited)
    intro copy shown held member same
    rw [mem_ranking, sentCopies_of_unlimited arith floats shards
      unlimited] at shown
    exact time_le_of_le (shown.2 held member same)
  · rw [truncate_of_ne_zero unlimited, StaleStaysOut]
    constructor
    · intro fresh
      refine Or.inr ?_
      intro sent best membership
      rcases membership with ⟨held, member, same, fresher⟩
      by_contra within
      have shown := (mem_take_ranking_iff byScore best
        request.limit.toNat).mpr (Nat.lt_of_not_le within)
      exact absurd (fresh sent shown held member same) (not_le.mpr fresher)
    · intro staysOut copy shown held member same
      have staleOut := staysOut.resolve_left unlimited
      have best := (mem_ranking byScore).mp (List.mem_of_mem_take shown)
      have within :=
        (mem_take_ranking_iff byScore best request.limit.toNat).mp shown
      by_contra fresher
      have behind := staleOut copy best
        ⟨held, member, same, not_le.mp fresher⟩
      omega

/-! ## The filter and the freshest copy -/

/-- All unfiltered matches of the answering shards, as they arrive. -/
def heldHits (arith : Arithmetic real) (floats : FloatRules real)
    (shards : List (AnsweringShard rules vectors)) (query : String) :
    List (SearchHit real) :=
  shards.flatMap (fun shard => shard.matching arith floats query none)

omit [LinearOrder real] in
/-- The hit's document passes the filter. -/
def hitPasses (floats : FloatRules real) (filter : Common.Filter real)
    (hit : SearchHit real) : Bool :=
  hit.document.any (fun doc => Filter.passes floats doc (some filter))

/-- When a copy of an aircraft passes the filter, the copy that wins the
aircraft passes it. -/
def WinnersPass (floats : FloatRules real) (filter : Common.Filter real)
    (hits : List (SearchHit real)) : Prop :=
  ∀ hit, Prevails hits hit →
    (∃ other ∈ hits, icao24Of other = icao24Of hit ∧
      hitPasses floats filter other = true) →
    hitPasses floats filter hit = true

private theorem hitsOf_replies_unlimited (arith : Arithmetic real)
    (floats : FloatRules real) (shards : List (AnsweringShard rules vectors))
    (query : String) (filter : Option (Common.Filter real)) :
    hitsOf (shards.map
        (fun shard => shard.reply arith floats ⟨query, 0, filter⟩)) =
      shards.flatMap (fun shard => shard.matching arith floats query filter) := by
  rw [hitsOf, List.flatMap_map]
  rfl

/-- The shards send those of their matches that pass. -/
theorem flatMap_matching_filter (arith : Arithmetic real)
    (floats : FloatRules real) (shards : List (AnsweringShard rules vectors))
    (query : String) (filter : Common.Filter real) :
    shards.flatMap
        (fun shard => shard.matching arith floats query (some filter)) =
      (heldHits arith floats shards query).filter
        (hitPasses floats filter) := by
  rw [heldHits, List.filter_flatMap]
  congr 1
  funext shard
  exact ShardSearchService.matching_eq_filter arith floats query (some filter)

theorem Prevails.filter {hits : List (SearchHit real)}
    {hit : SearchHit real} {keep : SearchHit real → Bool}
    (prevails : Prevails hits hit) (kept : keep hit = true) :
    Prevails (hits.filter keep) hit := by
  obtain ⟨before, after, rfl, beats, unbeaten⟩ := prevails
  refine ⟨before.filter keep, after.filter keep, ?_, ?_, ?_⟩
  · rw [List.filter_append, List.filter_cons_of_pos kept]
  · intro other member
    exact beats other (List.mem_of_mem_filter member)
  · intro other member
    exact unbeaten other (List.mem_of_mem_filter member)

/-- Filtering before the deduplication keeps the same hits as filtering after
it exactly when the winners pass. -/
theorem prevails_filter_iff (floats : FloatRules real)
    (filter : Common.Filter real) (hits : List (SearchHit real)) :
    (∀ hit, Prevails (hits.filter (hitPasses floats filter)) hit ↔
        Prevails hits hit ∧ hitPasses floats filter hit = true) ↔
      WinnersPass floats filter hits := by
  constructor
  · intro same hit prevails membership
    rcases membership with ⟨other, member, shared, passing⟩
    obtain ⟨winner, wins, winnerIs⟩ := exists_prevails
      (List.mem_filter.mpr ⟨member, passing⟩)
    obtain ⟨winsAll, winnerPasses⟩ := (same winner).mp wins
    rw [winsAll.unique prevails (winnerIs.trans shared)] at winnerPasses
    exact winnerPasses
  · intro winnersPass hit
    constructor
    · intro prevails
      obtain ⟨member, passing⟩ := List.mem_filter.mp prevails.mem
      obtain ⟨winner, wins, winnerIs⟩ := exists_prevails member
      have winnerPasses := winnersPass winner wins
        ⟨hit, member, winnerIs.symm, passing⟩
      have same := (wins.filter winnerPasses).unique prevails winnerIs
      rw [← same]
      exact ⟨wins, winnerPasses⟩
    · intro prevailing
      rcases prevailing with ⟨prevails, passing⟩
      exact prevails.filter passing

theorem pairwise_sortHits (hits : List (SearchHit real)) :
    (sortHits hits).Pairwise
      (fun first second => (cmpHits first second).isLE = true) :=
  pairwise_sortBy cmpHits_trans cmpHits_total hits

/-- Sorted hits of distinct aircraft are equal when they are the same hits. -/
theorem sorted_eq_of_perm {first second : List (SearchHit real)}
    (once : (first.map icao24Of).Nodup) (permuted : first.Perm second)
    (firstSorted : first.Pairwise
      (fun left right => (cmpHits left right).isLE = true))
    (secondSorted : second.Pairwise
      (fun left right => (cmpHits left right).isLE = true)) :
    first = second := by
  apply permuted.eq_of_pairwise _ firstSorted secondSorted
  intro left right member rightMember
  exact cmpHits_antisymm once left member right
    (permuted.mem_iff.mpr rightMember)

theorem mem_sortHits_dedup (order : IterationOrder (SearchHit real))
    (hits : List (SearchHit real)) (hit : SearchHit real) :
    hit ∈ sortHits (dedupByAircraft order hits) ↔ Prevails hits hit := by
  rw [sortHits, (sortBy_perm _ _).mem_iff, mem_dedupByAircraft_iff]

theorem sortHits_dedup_once (order : IterationOrder (SearchHit real))
    (hits : List (SearchHit real)) :
    ((sortHits (dedupByAircraft order hits)).map icao24Of).Nodup := by
  have once := (condenses_dedupByAircraft order hits).once
  rw [List.map_map] at once
  exact ((sortBy_perm _ _).map icao24Of).nodup_iff.mpr once

/-- Filtering before deduplication and sorting is filtering after them exactly
when the winners pass. -/
theorem filter_sortHits_iff (order order' : IterationOrder (SearchHit real))
    (floats : FloatRules real) (filter : Common.Filter real)
    (hits : List (SearchHit real)) :
    sortHits (dedupByAircraft order
          (hits.filter (hitPasses floats filter))) =
        (sortHits (dedupByAircraft order' hits)).filter
          (hitPasses floats filter) ↔
      WinnersPass floats filter hits := by
  rw [← prevails_filter_iff]
  have plainMem : ∀ hit,
      hit ∈ (sortHits (dedupByAircraft order' hits)).filter
          (hitPasses floats filter) ↔
        Prevails hits hit ∧ hitPasses floats filter hit = true := by
    intro hit
    rw [List.mem_filter, mem_sortHits_dedup]
  have filteredOnce := sortHits_dedup_once order
    (hits.filter (hitPasses floats filter))
  have plainOnce := sortHits_dedup_once order' hits
  constructor
  · intro same hit
    rw [← mem_sortHits_dedup order, ← plainMem, same]
  · intro same
    apply sorted_eq_of_perm filteredOnce
    · rw [List.perm_ext_iff_of_nodup (List.Nodup.of_map _ filteredOnce)
        ((List.Nodup.of_map _ plainOnce).filter _)]
      intro hit
      rw [mem_sortHits_dedup, plainMem, same]
    · exact pairwise_sortHits _
    · exact (pairwise_sortHits _).filter _

private theorem hits_merge_unlimited (circumstances : MergeCall real)
    (responses : List (SearchResponse real)) :
    (circumstances.merge responses (0 : UInt32).toNat).hits =
      sortHits (dedupByAircraft circumstances.order (hitsOf responses)) :=
  truncate_zero _

/-- The hits of an unlimited search with a filter are the hits of the same
search without it that pass, exactly when the winners pass. -/
theorem filter_pushdown_iff (arith : Arithmetic real)
    (cluster : Cluster rules vectors) (service : CoordinatorService)
    (call : QueryCall real) (order : Nat → IterationOrder (SearchHit real))
    (floats : FloatRules real) (authorization : Option String)
    (query : String) (filter : Common.Filter real)
    (authorized : service.auth.require authorization .read = .ok ())
    (valid : filter.validate floats = .ok ()) :
    ∃ filtered plain,
      (service.search floats (cluster.network arith floats)
        { call with order := order } authorization
        ⟨query, 0, some filter⟩).outcome = .ok filtered ∧
      (service.search floats (cluster.network arith floats) call authorization
        ⟨query, 0, none⟩).outcome = .ok plain ∧
      (filtered.hits = plain.hits.filter (hitPasses floats filter) ↔
        WinnersPass floats filter
          (heldHits arith floats (cluster.answering service call) query)) := by
  have accepted : checkFilter floats (some filter) = .ok () := by
    simp only [checkFilter, valid]
  obtain ⟨filteredCall, filteredAnswer⟩ := cluster.search_eq arith service
    { call with order := order } floats ⟨query, 0, some filter⟩ authorized
    accepted
  obtain ⟨plainCall, plainAnswer⟩ := cluster.search_eq arith service call
    floats ⟨query, 0, none⟩ authorized rfl
  refine ⟨_, _, filteredAnswer, plainAnswer, ?_⟩
  rw [hits_merge_unlimited, hits_merge_unlimited, hitsOf_replies_unlimited,
    hitsOf_replies_unlimited, flatMap_matching_filter]
  exact filter_sortHits_iff filteredCall.order plainCall.order floats filter _

/-! ## Two groups during a move -/

namespace Move

def latin : TextRules where
  isAlphanumeric := Char.isAlphanum
  toLowercase text := String.ofList (text.toList.map Char.toLower)

/-- Scores over the rationals, with the start of the series of the
logarithm. -/
def rational : Arithmetic Rat where
  ofNat number := number
  half := 1 / 2
  add := (· + ·)
  sub := (· - ·)
  mul := (· * ·)
  div := (· / ·)
  ln value :=
    let ratio := (value - 1) / (value + 1)
    2 * ratio + 2 * ratio * ratio * ratio / 3
  k1 := 6 / 5
  b := 3 / 4

def rationalFloats : FloatRules Rat where
  ofInt time := time
  nan := 0
  le first second := first ≤ second
  lt first second := first < second
  display := toString

def noVectors : VectorSide Rat where
  State := Unit
  new := ()
  restart state := state
  insert state _ := state
  remove state _ := (state, false)

/-- One observation of an aircraft, with the same text as every other. -/
def sighting (aircraft : String) (time : Int) (altitude : Rat) :
    FlightDocument Rat :=
  { (default : FlightDocument Rat) with
    icao24 := aircraft
    callsign := "UAL"
    observedAt := time
    altitude := altitude }

/-- The store a shard reaches by inserting documents. -/
def filled (docs : List (FlightDocument Rat)) : ShardStore Rat noVectors :=
  (ShardStore.insertAll latin (fun _ => ⟨.asStored, .asStored⟩) .new
    docs).getD .new

private theorem holds_filled (docs : List (FlightDocument Rat)) :
    (filled docs).Holds latin
      (docs.foldl (fun found doc => found.insert doc.icao24 doc) ∅) := by
  have empty : (.new : ShardStore Rat noVectors).Holds latin ∅ :=
    ShardStore.holds_new latin
  obtain ⟨after, inserted, holds⟩ :=
    empty.insertAll (fun _ => ⟨.asStored, .asStored⟩) docs
  rw [filled, inserted]
  exact holds

def group (shardId : String) (docs : List (FlightDocument Rat)) :
    AnsweringShard latin noVectors where
  service := { store := filled docs, shardId := shardId, assignments := none }
  documents := docs.foldl (fun found doc => found.insert doc.icao24 doc) ∅
  holds := holds_filled docs
  order := .asStored

/-- Two groups that both answer. -/
def cluster (first second : List (FlightDocument Rat)) :
    Cluster latin noVectors where
  reached number _ :=
    .ok (if number = 0 then group "shard-0" first else group "shard-1" second)
  otherCalls :=
    { search := fun _ _ _ => .unreachable
      vectorSearch := fun _ _ _ => .unreachable
      aggregate := fun _ _ _ => .unreachable }

def leader (name : String) : NodeInfo :=
  { nodeId := name, address := "http://" ++ name, role := .leader,
    lastSeen := 0 }

/-- A coordinator that routes to the leaders of both groups. -/
def coordinator : CoordinatorService where
  registry := { Registry.new 2 with
    leaders := (∅ : Std.ExtTreeMap UInt32 NodeInfo).insertMany
      [(0, leader "a"), (1, leader "b")] }
  auth := { tokens := ∅, enabled := false }

def call : QueryCall Rat where
  leaders := .asStored
  arrival := .asStored
  order _ := .asStored
  elapsedMs := 0

def query (limit : UInt32) (filter : Option (Common.Filter Rat)) :
    SearchRequest Rat :=
  { query := "ual", limit := limit, filter := filter }

theorem eq_ok_of_toOption {α : Type} {outcome : Except Status α} {value : α}
    (found : outcome.toOption = some value) : outcome = .ok value := by
  cases outcome with
  | error status =>
      contradiction
  | ok answer =>
      rw [Option.some.inj found]

/-- The hits shown, by aircraft and observation time. -/
def shown (first second : List (FlightDocument Rat))
    (request : SearchRequest Rat) : Option (List (String × Int)) :=
  (coordinator.search rationalFloats
    ((cluster first second).network rational rationalFloats) call none
      request).outcome.toOption.map
        (fun response => response.hits.map
          (fun hit => (icao24Of hit, observedAtOf hit)))

/-- The first group has taken over `aaz` and observed it again. -/
def takenOver : List (FlightDocument Rat) :=
  [sighting "aab" 150 0, sighting "aaz" 200 0]

/-- The second group still holds its old copy. -/
def leftBehind : List (FlightDocument Rat) :=
  [sighting "aaz" 100 0]

theorem showsFreshest_iff_move :
    ∃ response,
      (coordinator.search rationalFloats
        ((cluster takenOver leftBehind).network rational rationalFloats) call
        none (query 1 none)).outcome = .ok response ∧
      (ShowsFreshest rational rationalFloats
          ((cluster takenOver leftBehind).answering coordinator call)
          (query 1 none) response ↔
        StaleStaysOut rational rationalFloats
          ((cluster takenOver leftBehind).answering coordinator call)
          (query 1 none)) :=
  showsFreshest_iff rational (cluster takenOver leftBehind) coordinator call
    rationalFloats none (query 1 none) rfl rfl

/-- With limit one the first group answers `aab`, and the old copy of `aaz` has
the best score of what is sent. -/
theorem stale_copy_shown :
    ∃ response,
      (coordinator.search rationalFloats
        ((cluster takenOver leftBehind).network rational rationalFloats) call
        none (query 1 none)).outcome = .ok response ∧
      ¬ ShowsFreshest rational rationalFloats
        ((cluster takenOver leftBehind).answering coordinator call)
        (query 1 none) response := by
  have shownAre :
      shown takenOver leftBehind (query 1 none) = some [("aaz", 100)] := by
    decide +kernel
  have held :
      ("aaz", (200 : Int)) ∈ ((group "shard-0" takenOver).matching rational
        rationalFloats "ual" none).map
          (fun hit => (icao24Of hit, observedAtOf hit)) := by
    decide +kernel
  obtain ⟨response, answered, hitsAre⟩ := Option.map_eq_some_iff.mp shownAre
  obtain ⟨hit, member, hitIs⟩ := List.mem_map.mp
    (hitsAre ▸ List.mem_singleton_self ("aaz", (100 : Int)))
  obtain ⟨other, otherMember, otherIs⟩ := List.mem_map.mp held
  rw [Prod.mk.injEq] at hitIs otherIs
  refine ⟨response, eq_ok_of_toOption answered, ?_⟩
  intro fresh
  have order := fresh hit member (group "shard-0" takenOver)
    List.mem_cons_self other otherMember (otherIs.1.trans hitIs.1.symm)
  rw [otherIs.2, hitIs.2] at order
  exact absurd order (by decide)

/-- Only aircraft at 1000 or higher. -/
def highUp : Common.Filter Rat :=
  ⟨[⟨"altitude", some (.range ⟨some 1000, none⟩)⟩]⟩

/-- The first group has seen `aaa` descend; the second still holds it high
up. -/
def descended : List (FlightDocument Rat) :=
  [sighting "aaa" 200 500]

def stillHigh : List (FlightDocument Rat) :=
  [sighting "aaa" 100 5000]

theorem filter_pushdown_iff_move :
    ∃ filtered plain,
      (coordinator.search rationalFloats
        ((cluster descended stillHigh).network rational rationalFloats) call
        none ⟨"ual", 0, some highUp⟩).outcome = .ok filtered ∧
      (coordinator.search rationalFloats
        ((cluster descended stillHigh).network rational rationalFloats) call
        none ⟨"ual", 0, none⟩).outcome = .ok plain ∧
      (filtered.hits = plain.hits.filter (hitPasses rationalFloats highUp) ↔
        WinnersPass rationalFloats highUp
          (heldHits rational rationalFloats
            ((cluster descended stillHigh).answering coordinator call)
            "ual")) :=
  filter_pushdown_iff rational (cluster descended stillHigh) coordinator call
    call.order rationalFloats none "ual" highUp rfl rfl

/-- The filtered search shows the old copy; without the filter only the fresh
copy is there, and it fails. -/
theorem filtered_search_shows_stale :
    ∃ filtered plain,
      (coordinator.search rationalFloats
        ((cluster descended stillHigh).network rational rationalFloats) call
        none ⟨"ual", 0, some highUp⟩).outcome = .ok filtered ∧
      (coordinator.search rationalFloats
        ((cluster descended stillHigh).network rational rationalFloats) call
        none ⟨"ual", 0, none⟩).outcome = .ok plain ∧
      filtered.hits ≠ plain.hits.filter (hitPasses rationalFloats highUp) := by
  have filteredAre :
      shown descended stillHigh ⟨"ual", 0, some highUp⟩ =
        some [("aaa", 100)] := by
    decide +kernel
  have plainAre :
      (coordinator.search rationalFloats
        ((cluster descended stillHigh).network rational rationalFloats) call
        none ⟨"ual", 0, none⟩).outcome.toOption.map
          (fun response => (response.hits.filter
            (hitPasses rationalFloats highUp)).length) = some 0 := by
    decide +kernel
  obtain ⟨filtered, answered, hitsAre⟩ :=
    Option.map_eq_some_iff.mp filteredAre
  obtain ⟨plain, plainAnswered, none⟩ := Option.map_eq_some_iff.mp plainAre
  refine ⟨filtered, plain, eq_ok_of_toOption answered,
    eq_ok_of_toOption plainAnswered, ?_⟩
  intro same
  have lengths := congrArg List.length hitsAre
  rw [List.length_map, same, none] at lengths
  exact absurd lengths (by decide)

end Move

end AetherEngine.Coordinator
