import AetherEngine.Common.Filter
import AetherEngine.Shard.Store

/-!
# The shard's query service

Keyword and vector queries against one shard's store.  A filter is applied to
the full ranking before it is cut, so the shard answers with the best hits that
pass.

A poisoned lock is left out: it is the trace of a panic, and an operation that
would panic gives no result.
-/

namespace AetherEngine.Shard

open AetherEngine.Common
open AetherEngine.Ranking

variable {real : Type} {vectors : VectorSide real}

/-- How the store queries its vector index. -/
structure VectorQueries (vectors : VectorSide real) where
  embedDim : vectors.State → Nat
  search : vectors.State → List real → Nat → List (ScoredHit real)

structure ShardSearchService (real : Type) (vectors : VectorSide real) where
  store : ShardStore real vectors
  shardId : String
  /-- The live virtual-shard table, under virtual-shard placement. -/
  assignments : Option (List UInt32)

namespace ShardSearchService

/-- How many neighbours a vector search returns by default. -/
def defaultKnn : Nat := 10

/-- The virtual shard that owns an aircraft, or `-1` without a table. -/
def owningVshard (service : ShardSearchService real vectors)
    (icao24 : String) : Int :=
  match service.assignments with
  | some table =>
      if table.length = 0 then
        -1
      else
        -- the cast to a signed 32-bit number wraps
        Int.bmod ((fnv1a64 (textBytes icao24)).toNat % table.length) (2 ^ 32)
  | none => -1

/-- A hit with its provenance. -/
def hit (service : ShardSearchService real vectors)
    (doc : FlightDocument real) (score : real) (index : IndexKind) :
    SearchHit real where
  document := some doc
  score := score
  provenance := some
    { sourceGroup := service.shardId
      observedAt := doc.observedAt
      index := index
      score := score
      owningVshard := service.owningVshard doc.icao24 }

/-- Keyword search: with a filter, rank everything, filter, then cut. -/
def search [LinearOrder real] (rules : TextRules) (arith : Arithmetic real)
    (floats : FloatRules real) (order : IterationOrder (Nat × real))
    (service : ShardSearchService real vectors)
    (request : SearchRequest real) :
    Option (Except Status (SearchResponse real)) :=
  match checkFilter floats request.filter with
  | .error status => some (.error status)
  | .ok () => do
      let limit := request.limit.toNat
      let fetch := if request.filter.isSome then 0 else limit
      let results ← service.store.search rules arith order request.query fetch
      let hits := (results.hits.filter
        (fun hit => Filter.passes floats hit.doc request.filter)).map
          (fun hit => service.hit hit.doc hit.score .keyword)
      let totalMatched :=
        if request.filter.isSome then hits.length else results.totalMatched
      let hits := if request.filter.isSome then truncate limit hits else hits
      some (.ok
        { hits := hits
          totalMatched := totalMatched.toUInt64
          shardId := service.shardId
          shardsQueried := 0
          shardsAnswered := 0
          manifest := none })

/-- Nearest neighbours: with a filter, fetch four times as many, filter, then
cut. -/
def vectorSearch (floats : FloatRules real) (queries : VectorQueries vectors)
    (service : ShardSearchService real vectors)
    (request : VectorSearchRequest real) :
    Except Status (SearchResponse real) := do
  let k := if request.limit = 0 then defaultKnn else request.limit.toNat
  checkFilter floats request.filter
  let expected := queries.embedDim service.store.vector
  if request.vector.length ≠ expected then
    throw (.invalidArgument ("query vector has " ++
      toString request.vector.length ++ " dims, this shard embeds at " ++
      toString expected))
  -- a product beyond the machine's range saturates; no index is that large
  let fetch := if request.filter.isSome then k * 4 else k
  let found := queries.search service.store.vector request.vector fetch
  let hits := ((found.filter
    (fun hit => Filter.passes floats hit.doc request.filter)).map
      (fun hit => service.hit hit.doc hit.score .vector)).take k
  .ok
    { hits := hits
      totalMatched := hits.length.toUInt64
      shardId := service.shardId
      shardsQueried := 0
      shardsAnswered := 0
      manifest := none }

/-! ## What a keyword search answers -/

/-- Every document that matches a query and passes its filter, as a hit, best
first. -/
def matching [LinearOrder real] (rules : TextRules) (arith : Arithmetic real)
    (floats : FloatRules real) (service : ShardSearchService real vectors)
    (surviving : Std.ExtTreeMap String (FlightDocument real))
    (query : String) (filter : Option (Common.Filter real)) :
    List (SearchHit real) :=
  ((scan rules arith surviving query 0).hits.filter
    (fun hit => Filter.passes floats hit.doc filter)).map
      (fun hit => service.hit hit.doc hit.score .keyword)

/-- Every hit passes when there is no filter. -/
theorem filter_passes_none (floats : FloatRules real)
    (hits : List (ScoredHit real)) :
    hits.filter (fun hit => Filter.passes floats hit.doc none) = hits := by
  rw [List.filter_eq_self]
  intro hit _
  rfl

section Answers

variable [LinearOrder real]
variable {rules : TextRules} {service : ShardSearchService real vectors}
variable {surviving : Std.ExtTreeMap String (FlightDocument real)}

private theorem matching_without_filter (arith : Arithmetic real)
    (floats : FloatRules real) (query : String) :
    service.matching rules arith floats surviving query none =
      (scan rules arith surviving query 0).hits.map
        (fun hit => service.hit hit.doc hit.score .keyword) := by
  rw [matching, filter_passes_none]

/-- The shard answers with the best `limit` matching documents and counts all
of them. -/
theorem search_eq (holds : service.store.Holds rules surviving)
    (arith : Arithmetic real) {floats : FloatRules real}
    (order : IterationOrder (Nat × real)) {request : SearchRequest real}
    (accepted : checkFilter floats request.filter = .ok ()) :
    service.search rules arith floats order request =
      some (.ok
        { hits := truncate request.limit.toNat
            (service.matching rules arith floats surviving request.query
              request.filter)
          totalMatched := (service.matching rules arith floats surviving
            request.query request.filter).length.toUInt64
          shardId := service.shardId
          shardsQueried := 0
          shardsAnswered := 0
          manifest := none }) := by
  have answers : ∀ limit,
      service.store.search rules arith order request.query limit =
        some (scan rules arith surviving request.query limit) :=
    fun limit => InvertedIndex.Represents.search holds arith order _ limit
  simp only [search, accepted, answers, Option.bind_eq_bind,
    Option.bind_some]
  cases given : request.filter with
  | some filter =>
      rfl
  | none =>
      have cut :
          (scan rules arith surviving request.query
              request.limit.toNat).hits =
            truncate request.limit.toNat
              (scan rules arith surviving request.query 0).hits := by
        rw [scan, scan, truncate_zero]
      have total :
          (scan rules arith surviving request.query
              request.limit.toNat).totalMatched =
            (scan rules arith surviving request.query 0).hits.length := by
        rw [scan, scan, truncate_zero, sortScored,
          (sortBy_perm _ _).length_eq, List.length_map]
      rw [matching_without_filter]
      simp only [filter_passes_none, Option.isSome_none, Bool.false_eq_true,
        if_false, cut, total, map_truncate, List.length_map]

/-- The filter picks from the unfiltered matches. -/
theorem matching_eq_filter (arith : Arithmetic real)
    (floats : FloatRules real) (query : String)
    (filter : Option (Common.Filter real)) :
    service.matching rules arith floats surviving query filter =
      (service.matching rules arith floats surviving query none).filter
        (fun hit => hit.document.any
          (fun doc => Filter.passes floats doc filter)) := by
  rw [matching_without_filter, matching, List.filter_map]
  rfl

end Answers

end ShardSearchService

end AetherEngine.Shard
