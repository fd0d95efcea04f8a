import AetherEngine.Cluster.Slices
import AetherEngine.Shard.Pipeline

/-!
# A cluster placed by hash, from ingestion to search

Every shard polls the source and keeps the aircraft whose hash falls to it.  A
query asked of all shards then answers from one table: for each aircraft the
last observation its own shard has considered.
-/

namespace AetherEngine.Cluster

open AetherEngine.Common
open AetherEngine.Coordinator
open AetherEngine.Doubles
open AetherEngine.Federation
open AetherEngine.Ranking
open AetherEngine.Shard
open AetherEngine.Traces
open AetherEngine.Upserts

variable {real : Type} {vectors : VectorSide real}

/-- A shard that serves what its own ingestion has indexed of its slice. -/
structure PlacedShard (rules : TextRules) (vectors : VectorSide real)
    (count : UInt32) where
  shard : AnsweringShard rules vectors
  index : UInt32
  outlet : Outlet real
  events : List (IngestionEvent real)
  ingestion : Ingestion rules vectors
  leads : Leads (Ingestion.step none)
    (.begin (.modulo index count) .new outlet) events ingestion
  serves : shard.service.store = ingestion.store.store

/-! ## A fixed slice -/

private theorem refresh_modulo (table : List UInt32) (index count : UInt32) :
    (Ownership.modulo index count).refresh table = .modulo index count :=
  rfl

/-- A fixed slice is in force throughout. -/
theorem inForce_modulo (index count : UInt32)
    (events : List (IngestionEvent real)) :
    ∀ ownership ∈ inForce (.modulo index count) events,
      ownership = .modulo index count := by
  generalize fixed : Ownership.modulo index count = start
  fun_induction inForce start events with
  | case1 =>
      simp
  | case2 ownership passes later inductionHypothesis =>
      intro other member
      rcases List.mem_cons.mp member with first | rest
      · exact first
      · exact inductionHypothesis fixed other rest
  | case3 ownership table later inductionHypothesis =>
      intro other member
      rw [← fixed, refresh_modulo] at member inductionHypothesis
      rw [← fixed]
      exact inductionHypothesis rfl other member
  | case4 ownership event later notIndexed notViewed inductionHypothesis =>
      exact inductionHypothesis fixed

private theorem ownedUnder_fixed {ownership : Ownership}
    {docs : List (FlightDocument real)} {verdicts : List Ownership}
    (paired : docs.length = verdicts.length)
    (fixed : ∀ other ∈ verdicts, other = ownership) :
    ownedUnder docs verdicts =
      docs.filter (fun doc => ownership.owns doc.icao24) := by
  induction docs generalizing verdicts with
  | nil =>
      rw [List.eq_nil_of_length_eq_zero paired.symm]
      rfl
  | cons doc docs inductionHypothesis =>
      cases verdicts with
      | nil =>
          cases paired
      | cons first later =>
          have rest := inductionHypothesis (Nat.succ.inj paired)
            (fun other member => fixed other (List.mem_cons_of_mem _ member))
          rw [ownedUnder, rest, fixed first List.mem_cons_self,
            List.filter_cons]

namespace PlacedShard

variable {rules : TextRules} {count : UInt32}

/-- The documents the shard's ingestion has considered, in order. -/
def considered (placed : PlacedShard rules vectors count) :
    List (FlightDocument real) :=
  (fetched placed.events).flatten.take
    (inForce (.modulo placed.index count) placed.events).length

/-- The shard holds the last considered observation of each aircraft of its
slice, and of no other. -/
theorem getElem?_documents (placed : PlacedShard rules vectors count)
    (aircraft : String) :
    placed.shard.documents[aircraft]? =
      if shardFor aircraft count = placed.index then
        lastWritten FlightDocument.icao24 placed.considered aircraft
      else
        none := by
  obtain ⟨-, -, ⟨docs, split, paired⟩, shown⟩ :=
    Ingestion.accounted placed.leads
  have sameDocuments :
      placed.shard.documents = placed.ingestion.store.contents := by
    rw [HeldStore.contents, ← placed.serves, placed.shard.holds.contents_eq]
  have consideredIs : placed.considered = docs := by
    rw [considered, split, ← paired, List.take_left']
    rfl
  have kept : keptDocs (.modulo placed.index count) placed.events =
      docs.filter
        (fun doc => (Ownership.modulo placed.index count).owns doc.icao24) := by
    rw [Ingestion.keptDocs_eq split paired,
      ownedUnder_fixed paired (inForce_modulo _ _ _)]
  have empty : (HeldStore.new : HeldStore rules vectors).contents = ∅ := rfl
  rw [sameDocuments, shown, kept, insertDocs, getElem?_upsertAll,
    lastWritten_filter FlightDocument.icao24
      (fun aircraft => (Ownership.modulo placed.index count).owns aircraft),
    consideredIs, empty]
  simp [Ownership.owns]

/-- The shard with its slice. -/
def sliced (placed : PlacedShard rules vectors count) :
    SlicedShard rules vectors where
  shard := placed.shard
  owns aircraft := decide (shardFor aircraft count = placed.index)
  considered := placed.considered
  holdsSlice := by
    intro aircraft
    rw [placed.getElem?_documents]
    exact if_congr decide_eq_true_iff.symm rfl rfl

private theorem apart_sliced {placed : List (PlacedShard rules vectors count)}
    (different : (placed.map PlacedShard.index).Nodup) :
    Apart (placed.map sliced) := by
  rw [List.Nodup, List.pairwise_map] at different
  rw [Apart, List.pairwise_map]
  refine different.imp ?_
  intro first second other aircraft inFirst
  have isFirst : shardFor aircraft count = first.index :=
    of_decide_eq_true inFirst
  exact decide_eq_false (isFirst ▸ other)

theorem map_sliced (placed : List (PlacedShard rules vectors count)) :
    (placed.map sliced).map SlicedShard.shard =
      placed.map PlacedShard.shard := by
  rw [List.map_map]
  rfl

end PlacedShard

section Search

variable [LinearOrder real] {rules : TextRules} {count : UInt32}

/-- A search of a cluster placed by hash, when all of these shards and no others
answer, shows the best hits among one hit for each wanted aircraft: the last
observation its own shard has considered, if that mentions the query and passes
the filter.  All of them are counted, and there are no copies to drop. -/
theorem placed_search_exact (arith : Arithmetic real)
    (cluster : Cluster rules vectors) (service : CoordinatorService)
    (call : QueryCall real) (floats : FloatRules real)
    (authorization : Option String) (request : SearchRequest real)
    (authorized : service.auth.require authorization .read = .ok ())
    (accepted : checkFilter floats request.filter = .ok ())
    (placed : List (PlacedShard rules vectors count))
    (answering : cluster.answering service call =
      placed.map PlacedShard.shard)
    (different : (placed.map PlacedShard.index).Nodup) :
    let shards := placed.map PlacedShard.sliced
    ∃ response,
      (service.search floats (cluster.network arith floats) call authorization
        request).outcome = .ok response ∧
      response.hits = truncate request.limit.toNat
        (sortHits (found arith floats shards request)) ∧
      response.totalMatched =
        (found arith floats shards request).length.toUInt64 ∧
      response.manifest.map QueryManifest.deduped = some 0 ∧
      ((found arith floats shards request).map icao24Of).Nodup ∧
      (∀ doc, (∃ hit ∈ found arith floats shards request,
          hit.document = some doc) ↔
        Latest shards doc ∧ mentions rules request.query doc = true ∧
          Filter.passes floats doc request.filter = true) := by
  have apart := PlacedShard.apart_sliced different
  have sameShards := answering.trans (PlacedShard.map_sliced placed).symm
  obtain ⟨response, answered, hits, total, deduped⟩ := sliced_search arith
    cluster service call floats authorized accepted sameShards apart
  exact ⟨response, answered, hits, total, deduped,
    found_once arith floats apart request, mem_found arith floats _ request⟩

end Search

section ExactAggregates

variable {K : Type} [Field K] [LinearOrder K] [IsStrictOrderedRing K]
variable [LinearOrder (Double K)]
variable {rules : TextRules} {vectors : VectorSide (Double K)}

/-- An aggregate of a cluster placed by hash, when all of these shards and no
others answer, is the aggregate of one table: for each aircraft the last
observation its own shard has considered. -/
theorem placed_aggregate_exact (isWhitespace : Char → Bool)
    (arith : Arithmetic (Double K)) (scale : K → K → K)
    (cluster : Cluster rules vectors) (service : CoordinatorService)
    (call : QueryCall (Double K)) (buckets : IterationOrder (String × UInt64))
    (floats : FloatRules (Double K)) (text : BucketText (Double K))
    (authorization : Option String) (request : AggregateRequest (Double K))
    (authorized : service.auth.require authorization .read = .ok ())
    (accepted : checkFilter floats request.filter = .ok ())
    {count : UInt32} (placed : List (PlacedShard rules vectors count))
    (answering : cluster.answering service call =
      placed.map PlacedShard.shard)
    (different : (placed.map PlacedShard.index).Nodup) :
    ∃ response merged docs,
      (service.aggregate (exactFloats scale) floats
        (aggregating isWhitespace arith (exactFloats scale) floats text
          cluster) call buckets authorization request).outcome =
        .ok (some response) ∧
      response.summary = some merged ∧
      Summarizes floats text request merged docs ∧
      (docs.map FlightDocument.icao24).Nodup ∧
      (∀ doc, doc ∈ docs ↔
        Latest (placed.map PlacedShard.sliced) doc ∧
          Wanted isWhitespace rules floats request doc) := by
  have sameShards := answering.trans (PlacedShard.map_sliced placed).symm
  exact sliced_aggregate isWhitespace arith scale cluster service call buckets
    floats text authorized accepted sameShards
    (PlacedShard.apart_sliced different)

end ExactAggregates

/-! ## Two slices of one snapshot -/

namespace TwoSlices

open AetherEngine.Coordinator.Move (latin rational rationalFloats coordinator
  query)

def passes : Nat → Passes :=
  fun _ => ⟨.asStored, .asStored⟩

def noVectors (real : Type) : VectorSide real where
  State := Unit
  new := ()
  restart state := state
  insert state _ := state
  remove state _ := (state, false)

/-- A snapshot of two documents is polled and considered. -/
def polled (docs : List (FlightDocument real)) : List (IngestionEvent real) :=
  [.fetch (.ok docs), .send, .receive, .indexNext passes, .indexNext passes]

def polledBy (docs : List (FlightDocument real)) (index : UInt32) :
    Option (Ingestion latin (noVectors real)) :=
  replay (Ingestion.step none) (.begin (.modulo index 2) .new .absent)
    (polled docs)

def slice (docs : List (FlightDocument real)) (index : UInt32)
    (runs : (polledBy docs index).isSome = true) :
    PlacedShard latin (noVectors real) 2 where
  shard :=
    { service :=
        { store := ((polledBy docs index).get runs).store.store
          shardId := "shard-" ++ toString index
          assignments := none }
      documents := ((polledBy docs index).get runs).store.contents
      holds := ((polledBy docs index).get runs).store.holds_contents
      order := .asStored }
  index := index
  outlet := .absent
  events := polled docs
  ingestion := (polledBy docs index).get runs
  leads := (Option.some_get runs).symm
  serves := rfl

/-- The leaders of both slices answer. -/
def network (first second : AnsweringShard latin (noVectors real)) :
    Cluster latin (noVectors real) where
  reached number _ := .ok (if number = 0 then first else second)
  otherCalls :=
    { search := fun _ _ _ => .unreachable
      vectorSearch := fun _ _ _ => .unreachable
      aggregate := fun _ _ _ => .unreachable }

def call (real : Type) : QueryCall real where
  leaders := .asStored
  arrival := .asStored
  order _ := .asStored
  elapsedMs := 0

theorem answering_network
    (first second : AnsweringShard latin (noVectors real)) :
    (network first second).answering coordinator (call real) =
      [first, second] := by
  have leaders : coordinator.registry.leaderAddresses .asStored =
      ["http://a", "http://b"] := by
    decide +kernel
  rw [Cluster.answering, call, leaders]
  rfl

/-! ### Searched -/

def sightings : List (FlightDocument Rat) :=
  [Move.sighting "aaa" 100 0, Move.sighting "bbb" 90 0]

def first : PlacedShard latin (noVectors Rat) 2 :=
  slice sightings 0 (by decide +kernel)

def second : PlacedShard latin (noVectors Rat) 2 :=
  slice sightings 1 (by decide +kernel)

theorem placed_search_exact_twoSlices :
    ∃ response,
      (coordinator.search rationalFloats
        ((network first.shard second.shard).network rational rationalFloats)
        (call Rat) none (query 1 none)).outcome = .ok response ∧
      response.totalMatched = 2 ∧
      response.manifest.map QueryManifest.deduped = some 0 := by
  have matched : (found rational rationalFloats
      ([first, second].map PlacedShard.sliced) (query 1 none)).length = 2 := by
    decide +kernel
  obtain ⟨response, answered, -, total, deduped, -⟩ :=
    placed_search_exact rational (network first.shard second.shard)
      coordinator (call Rat) rationalFloats none (query 1 none) rfl rfl
      [first, second] (answering_network first.shard second.shard) (by decide)
  rw [matched] at total
  exact ⟨response, answered, total, deduped⟩

/-! ### Aggregated -/

def sampleRules : FloatRules (Double Rat) where
  ofInt time := .finite time
  nan := .nan
  le := Double.le
  lt := Double.lt
  display _ := "number"

def sampleText : BucketText (Double Rat) where
  bucketKey _ _ := "bucket"
  geoCell _ _ _ := "cell"

def countByOrigin : AggregateRequest (Double Rat) where
  query := ""
  kind := .valueCounts
  field := "origin"
  interval := .finite 0
  percentiles := []
  filter := none

/-- An aircraft of an origin; its numbers do not matter. -/
def departed (aircraft origin : String) : FlightDocument (Double Rat) where
  icao24 := aircraft
  callsign := ""
  observedAt := 0
  latitude := .nan
  longitude := .nan
  altitude := .nan
  origin := origin
  destination := ""
  aircraftType := ""
  velocity := .nan
  heading := .nan
  verticalRate := .nan
  onGround := false
  tenantId := ""
  text := ∅
  number := ∅

def departures : List (FlightDocument (Double Rat)) :=
  [departed "aaa" "SFO", departed "bbb" "SFO"]

def third : PlacedShard latin (noVectors (Double Rat)) 2 :=
  slice departures 0 (by decide +kernel)

def fourth : PlacedShard latin (noVectors (Double Rat)) 2 :=
  slice departures 1 (by decide +kernel)

/-- An order of the doubles, for scores that the aggregate does not read. -/
def position : Double Rat → Nat ×ₗ Rat
  | .infinite true => toLex (0, 0)
  | .finite value => toLex (1, value)
  | .infinite false => toLex (2, 0)
  | .nan => toLex (3, 0)

private theorem position_injective : Function.Injective position := by
  intro left right same
  rcases left with _ | (_ | _) | _ <;>
    rcases right with _ | (_ | _) | _ <;>
    simp_all [position]

@[reducible]
noncomputable def totalOrder : LinearOrder (Double Rat) :=
  LinearOrder.lift' position position_injective

/-- Scores without a logarithm; a blank query scores nothing. -/
def flatScores : Arithmetic (Double Rat) where
  ofNat number := .finite number
  half := .finite (1 / 2)
  add := Double.add
  sub := Double.sub
  mul := Double.mul
  div := Double.div
  ln value := value
  k1 := .finite (6 / 5)
  b := .finite (3 / 4)

theorem placed_aggregate_exact_twoSlices :
    letI := totalOrder
    ∃ response merged docs,
      (coordinator.aggregate (exactFloats (fun _ q => q)) sampleRules
        (aggregating Char.isWhitespace flatScores
          (exactFloats (fun _ q => q)) sampleRules sampleText
          (network third.shard fourth.shard)) (call (Double Rat)) .asStored none
        countByOrigin).outcome = .ok (some response) ∧
      response.summary = some merged ∧
      Summarizes sampleRules sampleText countByOrigin merged docs := by
  let := totalOrder
  obtain ⟨response, merged, docs, answered, summary, summarizes, -⟩ :=
    placed_aggregate_exact Char.isWhitespace flatScores (fun _ q => q)
      (network third.shard fourth.shard) coordinator (call (Double Rat))
      .asStored sampleRules sampleText none countByOrigin rfl rfl
      [third, fourth] (answering_network third.shard fourth.shard) (by decide)
  exact ⟨response, merged, docs, answered, summary, summarizes⟩

end TwoSlices

end AetherEngine.Cluster
