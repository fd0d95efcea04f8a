import AetherEngine.Coordinator.Agg
import AetherEngine.Coordinator.Overlap

/-!
# The coordinator's query entry points

Five calls take a filter.  Four of them check it before they contact a shard, so
a bad filter is the caller's error.  The streaming search does not: its shards
reject the filter, and the coordinator reports them as unreachable.
-/

namespace AetherEngine.Coordinator

open AetherEngine.Common
open AetherEngine.Ranking
open AetherEngine.Shard

variable {real : Type}

/-! ## Hybrid search -/

/-- The damping constant of reciprocal rank fusion. -/
def rrfK : Nat := 60

/-- One ranked hit adds to the score of its aircraft; the preferred list also
supplies the hit. -/
def fuseHit (arith : Arithmetic real) (prefer : Bool)
    (fused : Std.ExtTreeMap String (real × SearchHit real))
    (entry : SearchHit real × Nat) :
    Std.ExtTreeMap String (real × SearchHit real) :=
  let key := icao24Of entry.1
  if key = "" then
    fused
  else
    let contribution := arith.div (arith.ofNat 1)
      (arith.add (arith.ofNat rrfK)
        (arith.add (arith.ofNat entry.2) (arith.ofNat 1)))
    match fused[key]? with
    | some (score, existing) =>
        fused.insert key (arith.add score contribution,
          if prefer then entry.1 else existing)
    | none => fused.insert key (contribution, entry.1)

/-- Fuse two ranked lists by rank. -/
def rrfFuse [LinearOrder real] (arith : Arithmetic real)
    (order : IterationOrder (String × (real × SearchHit real)))
    (keyword vector : List (SearchHit real)) (limit : Nat) :
    List (SearchHit real) :=
  let fused := vector.zipIdx.foldl (fuseHit arith false)
    (keyword.zipIdx.foldl (fuseHit arith true) ∅)
  truncate limit (sortHits ((order.arrange fused.toList).map
    (fun entry => { entry.2.2 with score := entry.2.1 })))

/-- The circumstances of a hybrid search: one fan-out of each kind, and the pass
over the fused hits. -/
structure HybridCall (real : Type) where
  keyword : QueryCall real
  vectorArrival : IterationOrder (String × Nat)
  fused : IterationOrder (String × (real × SearchHit real))

/-- Keyword and vector search, fused by rank.  A shard counts as answering when
it answers both. -/
def CoordinatorService.hybridSearch [LinearOrder real]
    (arith : Arithmetic real) (embed : String → List real)
    (floats : FloatRules real) (network : Network real)
    (call : HybridCall real) (service : CoordinatorService)
    (authorization : Option String) (request : SearchRequest real) :
    Handled (SearchResponse real) :=
  admitted service floats authorization request.filter
    (let leaders := service.registry.leaderAddresses call.keyword.leaders
     let version := service.registry.placementVersion.toUInt64
     let vectorRequest : VectorSearchRequest real :=
       { vector := embed request.query
         limit := request.limit
         filter := request.filter }
     let keyword := scatterGather call.keyword.arrival
       (fun number address => network.search number address request) leaders
     let vector := scatterGather call.vectorArrival
       (fun number address =>
         network.vectorSearch number address vectorRequest) leaders
     let omitted := keyword.omitted ++ vector.omitted
     let keywordMerged := mergeSearchResponses (call.keyword.order 0) keyword 0
       leaders.length version 0
     let vectorMerged := mergeSearchResponses (call.keyword.order 1) vector 0
       leaders.length version 0
     let fused := rrfFuse arith call.fused keywordMerged.hits
       vectorMerged.hits request.limit.toNat
     let answered := leaders.length -
       (omitted.map OmittedShard.address).dedup.length
     { contacted := leaders ++ leaders
       outcome := .ok
         { hits := fused
           totalMatched := fused.length.toUInt64
           shardId := "coordinator"
           shardsQueried := leaders.length
           shardsAnswered := answered
           manifest := some (buildManifest fused leaders.length answered
             omitted 0 version call.keyword.elapsedMs) } })

/-! ## Aggregates -/

/-- The partials that arrive; a response without one is passed over. -/
def scatterAggregate (arrival : IterationOrder (String × Nat))
    (attempt : Nat → String → Attempt (AggregateResponse real))
    (leaders : List String) :
    List (AggregatePartial real) × List OmittedShard :=
  let outcomes := joinAll arrival attempt leaders
  ((outcomes.filterMap answerOf).filterMap AggregateResponse.summary,
    outcomes.filterMap omissionOf)

/-- Distributed aggregation. -/
def CoordinatorService.aggregate (digests : DigestFloats real)
    (floats : FloatRules real) (network : Network real)
    (call : QueryCall real) (buckets : IterationOrder (String × UInt64))
    (service : CoordinatorService) (authorization : Option String)
    (request : AggregateRequest real) :
    Handled (Option (AggregateResponse real)) :=
  admitted service floats authorization request.filter
    (let leaders := service.registry.leaderAddresses call.leaders
     let (partials, omitted) := scatterAggregate call.arrival
       (fun number address => network.aggregate number address request)
       leaders
     let merged := mergePartials digests buckets request.kind partials
       request.percentiles
     { contacted := leaders
       outcome := .ok (merged.map (fun result =>
         { summary := some result.1
           percentiles := result.2
           manifest := some (buildManifest ([] : List (SearchHit real))
             leaders.length partials.length omitted 0
             service.registry.placementVersion.toUInt64 call.elapsedMs) })) })

/-! ## The five calls -/

/-- A query, by the call it is sent to. -/
inductive Query (real : Type) where
  | search (request : SearchRequest real)
  | vectorSearch (request : VectorSearchRequest real)
  | aggregate (request : AggregateRequest real)
  | hybridSearch (request : SearchRequest real)
  | searchStream (request : SearchRequest real)

namespace Query

def filter : Query real → Option (Common.Filter real)
  | search request => request.filter
  | vectorSearch request => request.filter
  | aggregate request => request.filter
  | hybridSearch request => request.filter
  | searchStream request => request.filter

def isStream : Query real → Bool
  | searchStream _ => true
  | _ => false

end Query

/-- What a call returns; an aggregate whose merge panics returns nothing. -/
inductive Reply (real : Type) where
  | hits (response : SearchResponse real)
  | aggregated (response : Option (AggregateResponse real))
  | updates (updates : List (SearchUpdate real))

def Handled.map {α β : Type} (f : α → β) (handled : Handled α) :
    Handled β where
  contacted := handled.contacted
  outcome := handled.outcome.map f

/-- The state of the cluster as a query meets it. -/
structure QueryContext (real : Type) where
  arith : Arithmetic real
  digests : DigestFloats real
  floats : FloatRules real
  embed : String → List real
  network : Network real
  call : HybridCall real
  buckets : IterationOrder (String × UInt64)

/-- The handler of each call. -/
def CoordinatorService.answer [LinearOrder real]
    (context : QueryContext real) (service : CoordinatorService)
    (authorization : Option String) : Query real → Handled (Reply real)
  | .search request =>
      (service.search context.floats context.network context.call.keyword
        authorization request).map .hits
  | .vectorSearch request =>
      (service.vectorSearch context.floats context.network
        context.call.keyword authorization request).map .hits
  | .aggregate request =>
      (service.aggregate context.digests context.floats context.network
        context.call.keyword context.buckets authorization request).map
          .aggregated
  | .hybridSearch request =>
      (service.hybridSearch context.arith context.embed context.floats
        context.network context.call authorization request).map .hits
  | .searchStream request =>
      (service.searchStream context.network context.call.keyword
        authorization request).map .updates

/-! ## Who answers for a bad filter -/

private theorem checkFilter_of_validate_error {floats : FloatRules real}
    {filter : Common.Filter real} {message : String}
    (refused : filter.validate floats = .error message) :
    checkFilter floats (some filter) = .error (.invalidArgument message) := by
  simp only [checkFilter, refused]

/-- The handlers that check a filter refuse a bad one. -/
theorem admitted_of_checkFilter_error {α : Type}
    {service : CoordinatorService} {floats : FloatRules real}
    {authorization : Option String} {filter : Option (Common.Filter real)}
    {status : Status} (handle : Handled α)
    (authorized : service.auth.require authorization .read = .ok ())
    (refused : checkFilter floats filter = .error status) :
    admitted service floats authorization filter handle =
      .refused status := by
  simp only [admitted, authorized, refused]

section Filters

variable [LinearOrder real]

/-- A filter that fails validation is refused with its message, and no shard is
contacted. -/
def FilterRefused (context : QueryContext real)
    (service : CoordinatorService) (authorization : Option String)
    (query : Query real) : Prop :=
  ∀ filter message, query.filter = some filter →
    filter.validate context.floats = .error message →
      (service.answer context authorization query).contacted = [] ∧
        (service.answer context authorization query).outcome =
          .error (.invalidArgument message)

/-- No shard handler rejects the filter: a keyword search and an aggregate do
not fail, and a vector search fails on the vector's length only. -/
structure ShardsAccept (floats : FloatRules real)
    (filter : Option (Common.Filter real)) : Prop where
  search : ∀ {vectors : VectorSide real}
    (shard : ShardSearchService real vectors) (rules : TextRules)
    (arith : Arithmetic real) (order : IterationOrder (Nat × real))
    (request : SearchRequest real), request.filter = filter →
      ∀ status, shard.search rules arith floats order request ≠
        some (.error status)
  vectorSearch : ∀ {vectors : VectorSide real}
    (shard : ShardSearchService real vectors)
    (queries : VectorQueries vectors) (request : VectorSearchRequest real),
    request.filter = filter →
      ∀ status, shard.vectorSearch floats queries request = .error status →
        request.vector.length ≠ queries.embedDim shard.store.vector
  aggregate : ∀ {vectors : VectorSide real}
    (shard : ShardSearchService real vectors) (isWhitespace : Char → Bool)
    (rules : TextRules) (arith : Arithmetic real)
    (digests : DigestFloats real) (text : BucketText real)
    (order : IterationOrder (Nat × real)) (request : AggregateRequest real),
    request.filter = filter →
      ∀ status, shard.aggregate isWhitespace rules arith digests floats text
        order request ≠ some (.error status)

/-- A filter the coordinator accepts is accepted by every shard handler. -/
theorem shardsAccept_of_checkFilter {floats : FloatRules real}
    {filter : Option (Common.Filter real)}
    (accepted : checkFilter floats filter = .ok ()) :
    ShardsAccept floats filter := by
  constructor
  case search =>
    intro vectors shard rules arith order request equality status failed
    subst equality
    simp only [ShardSearchService.search, accepted, Option.bind_eq_bind,
      Option.bind_eq_some_iff] at failed
    obtain ⟨results, -, answer⟩ := failed
    cases answer
  case vectorSearch =>
    intro vectors shard queries request equality status failed sameLength
    subst equality
    simp only [ShardSearchService.vectorSearch, accepted, sameLength, ne_eq,
      not_true_eq_false, if_false] at failed
    cases failed
  case aggregate =>
    intro vectors shard isWhitespace rules arith digests text order request
      equality status failed
    subst equality
    simp only [ShardSearchService.aggregate, accepted, Option.bind_eq_bind,
      Option.bind_eq_some_iff] at failed
    obtain ⟨docs, -, summary, -, answer⟩ := failed
    cases answer

private theorem filterRefused_of_not_isStream (context : QueryContext real)
    {service : CoordinatorService} {authorization : Option String}
    {query : Query real}
    (authorized : service.auth.require authorization .read = .ok ())
    (checks : query.isStream = false) :
    FilterRefused context service authorization query := by
  intro filter message given failed
  have refused :
      checkFilter context.floats query.filter =
        .error (.invalidArgument message) :=
    given ▸ checkFilter_of_validate_error failed
  have refuses : ∀ {α : Type} (handle : Handled α) (reply : α → Reply real),
      (admitted service context.floats authorization query.filter
        handle).map reply =
        .refused (.invalidArgument message) := by
    intro α handle reply
    rw [admitted_of_checkFilter_error handle authorized refused]
    rfl
  have answered :
      service.answer context authorization query =
        .refused (.invalidArgument message) := by
    cases query with
    | search request => exact refuses _ _
    | vectorSearch request => exact refuses _ _
    | aggregate request => exact refuses _ _
    | hybridSearch request => exact refuses _ _
    | searchStream request => cases checks
  rw [answered]
  exact ⟨rfl, rfl⟩

/-- The streaming search never fails on its filter. -/
theorem searchStream_outcome (context : QueryContext real)
    (service : CoordinatorService) {authorization : Option String}
    (request : SearchRequest real)
    (authorized : service.auth.require authorization .read = .ok ()) :
    ∃ updates, (service.answer context authorization
      (.searchStream request)).outcome = .ok (.updates updates) := by
  simp only [CoordinatorService.answer, CoordinatorService.searchStream,
    authorized, Handled.map, Except.map]
  exact ⟨_, rfl⟩

/-- A bad filter is the caller's error, and an accepted one is accepted
everywhere, exactly when the call checks its filter or the filter is good. -/
theorem bad_filter_is_callers_error_iff (context : QueryContext real)
    (service : CoordinatorService) (authorization : Option String)
    (query : Query real)
    (authorized : service.auth.require authorization .read = .ok ()) :
    (FilterRefused context service authorization query ∧
        (checkFilter context.floats query.filter = .ok () →
          ShardsAccept context.floats query.filter)) ↔
      (query.isStream = true → ∀ filter, query.filter = some filter →
        filter.validate context.floats = .ok ()) := by
  constructor
  · intro answers streams filter given
    rcases answers with ⟨refused, -⟩
    cases query with
    | searchStream request =>
        cases checked : filter.validate context.floats with
        | ok => rfl
        | error message =>
            obtain ⟨updates, answered⟩ :=
              searchStream_outcome context service request authorized
            have failed := (refused filter message given checked).2
            rw [answered] at failed
            cases failed
    | search | vectorSearch | aggregate | hybridSearch => cases streams
  · intro valid
    refine ⟨?_, shardsAccept_of_checkFilter⟩
    cases streams : query.isStream with
    | false =>
        exact filterRefused_of_not_isStream context authorized streams
    | true =>
        intro filter message given failed
        rw [valid streams filter given] at failed
        cases failed

end Filters

namespace Move

def digests : DigestFloats Rat where
  ofNat number := number
  nan := 0
  add := (· + ·)
  sub := (· - ·)
  mul := (· * ·)
  div := (· / ·)
  le first second := first ≤ second
  lt first second := first < second
  partialCmp first second := some (compare first second)
  isFinite _ := true
  k _ quantile := quantile

/-- The cluster of a move, with both groups answering. -/
def context : QueryContext Rat where
  arith := rational
  digests := digests
  floats := rationalFloats
  embed _ := []
  network := (cluster takenOver leftBehind).network rational rationalFloats
  call :=
    { keyword := call
      vectorArrival := .asStored
      fused := .asStored }
  buckets := .asStored

/-- An equality test on a numeric column. -/
def mismatched : Common.Filter Rat :=
  ⟨[⟨"altitude", some (.equals "high")⟩]⟩

theorem bad_filter_is_callers_error_iff_move :
    (FilterRefused context coordinator none
          (.search (query 0 (some mismatched))) ∧
        (checkFilter rationalFloats (some mismatched) = .ok () →
          ShardsAccept rationalFloats (some mismatched))) ↔
      ((Query.search (query 0 (some mismatched))).isStream = true →
        ∀ filter, some mismatched = some filter →
          filter.validate rationalFloats = .ok ()) :=
  bad_filter_is_callers_error_iff context coordinator none
    (.search (query 0 (some mismatched))) rfl

/-- The final update of a streaming search: the leaders it contacted, and what
its manifest says about those that are missing. -/
def streamed (filter : Option (Common.Filter Rat)) :
    List String × Option (List (String × String)) :=
  let handled := coordinator.searchStream context.network call none
    (query 0 filter)
  (handled.contacted,
    (handled.outcome.toOption.bind List.getLast?).bind (fun update =>
      update.manifest.map (fun manifest => manifest.omitted.map
        (fun shard => (shard.address, shard.reason)))))

/-- A streaming search with a bad filter contacts both groups, does not fail,
and reports both as unreachable; without a filter nothing is missing. -/
theorem bad_filter_streams_as_unreachable :
    ¬ FilterRefused context coordinator none
        (.searchStream (query 0 (some mismatched))) ∧
      streamed (some mismatched) =
        (["http://a", "http://b"],
          some [("http://a", "unreachable"), ("http://b", "unreachable")]) ∧
      streamed none = (["http://a", "http://b"], some []) := by
  refine ⟨?_, by decide +kernel, by decide +kernel⟩
  intro refused
  obtain ⟨updates, answered⟩ :=
    searchStream_outcome context coordinator (query 0 (some mismatched)) rfl
  have failed := (refused mismatched _ rfl rfl).2
  rw [answered] at failed
  cases failed

end Move

end AetherEngine.Coordinator
