import AetherEngine.Coordinator.EntryPoints
import AetherEngine.Federation.Search
import AetherEngine.Foundations.Upserts
import AetherEngine.Shard.QueryAgreement

/-!
# Shards of different slices

A shard that has taken in the observations of a slice of the aircraft holds the
last one of each.  A query asked of shards with different slices then answers
from one table.
-/

namespace AetherEngine.Cluster

open AetherEngine.Common
open AetherEngine.Coordinator
open AetherEngine.Doubles
open AetherEngine.Federation
open AetherEngine.Ranking
open AetherEngine.Shard
open AetherEngine.Upserts

variable {real : Type} {vectors : VectorSide real}

/-- A shard that holds the last observation taken in of each aircraft of its
slice, and of no other. -/
structure SlicedShard (rules : TextRules) (vectors : VectorSide real) where
  shard : AnsweringShard rules vectors
  owns : String → Bool
  considered : List (FlightDocument real)
  holdsSlice : ∀ aircraft, shard.documents[aircraft]? =
    if owns aircraft = true then
      lastWritten FlightDocument.icao24 considered aircraft
    else
      none

section Slices

variable {rules : TextRules}

/-- No aircraft is in two of the slices. -/
def Apart (shards : List (SlicedShard rules vectors)) : Prop :=
  shards.Pairwise fun first second =>
    ∀ aircraft, first.owns aircraft = true → second.owns aircraft = false

/-- The last observation of an aircraft that its own shard has considered. -/
def Latest (shards : List (SlicedShard rules vectors))
    (doc : FlightDocument real) : Prop :=
  ∃ sliced ∈ shards, sliced.owns doc.icao24 = true ∧
    lastWritten FlightDocument.icao24 sliced.considered doc.icao24 = some doc

/-- The shards hold exactly the latest observations. -/
theorem exists_held_iff (shards : List (SlicedShard rules vectors))
    (doc : FlightDocument real) :
    (∃ sliced ∈ shards, sliced.shard.documents[doc.icao24]? = some doc) ↔
      Latest shards doc := by
  refine exists_congr fun sliced => and_congr_right fun _ => ?_
  rw [sliced.holdsSlice]
  by_cases own : sliced.owns doc.icao24 = true
  · rw [if_pos own]
    exact (and_iff_right own).symm
  · rw [if_neg own]
    exact iff_of_false (by simp) (fun both => own both.1)

/-- Shards of different slices contribute different aircraft. -/
theorem slices_once {α : Type} (keyOf : α → String)
    (itemsOf : SlicedShard rules vectors → List α)
    (held : ∀ sliced, ∀ item ∈ itemsOf sliced,
      sliced.shard.documents[keyOf item]? ≠ none)
    (once : ∀ sliced, ((itemsOf sliced).map keyOf).Nodup)
    {shards : List (SlicedShard rules vectors)} (apart : Apart shards) :
    ((shards.flatMap itemsOf).map keyOf).Nodup := by
  rw [List.map_flatMap, List.nodup_flatMap]
  refine ⟨fun sliced _ => once sliced, apart.imp ?_⟩
  intro first second different aircraft inFirst inSecond
  have own : ∀ sliced, aircraft ∈ (itemsOf sliced).map keyOf →
      sliced.owns aircraft = true := by
    intro sliced member
    obtain ⟨item, inside, rfl⟩ := List.mem_map.mp member
    have stored := held sliced item inside
    rw [sliced.holdsSlice] at stored
    by_contra foreign
    rw [if_neg foreign] at stored
    exact stored rfl
  have missed := different aircraft (own first inFirst)
  rw [own second inSecond] at missed
  contradiction

/-- When every shard sends the best of its sorted list, the merge shows the best
of all lists, and there are no copies to drop. -/
theorem merge_of_slices [LinearOrder real] (circumstances : MergeCall real)
    {shards : List (SlicedShard rules vectors)}
    {listOf : SlicedShard rules vectors → List (SearchHit real)}
    (replyOf : SlicedShard rules vectors → SearchResponse real) (limit : Nat)
    (once : ((shards.flatMap listOf).map icao24Of).Nodup)
    (sorted : ∀ sliced, sortHits (listOf sliced) = listOf sliced)
    (sent : ∀ sliced ∈ shards,
      (replyOf sliced).hits = truncate limit (listOf sliced)) :
    (circumstances.merge (shards.map replyOf) limit).hits =
        truncate limit (sortHits (shards.flatMap listOf)) ∧
      (circumstances.merge (shards.map replyOf) limit).manifest.map
        QueryManifest.deduped = some 0 := by
  have collected : hitsOf (shards.map replyOf) =
      shards.flatMap (fun sliced => truncate limit (listOf sliced)) := by
    rw [hitsOf, List.flatMap_map]
    exact List.flatMap_congr sent
  constructor
  · rw [List.flatMap_def] at once ⊢
    apply truncate_sortHits_collected circumstances.order once
    apply List.Perm.of_eq
    rw [← hitsOf, collected, List.flatMap_map]
    exact List.flatMap_congr fun sliced _ => by rw [sorted]
  · have sentOnce : ((hitsOf (shards.map replyOf)).map icao24Of).Nodup := by
      rw [collected]
      refine once.sublist (List.Sublist.map icao24Of ?_)
      exact List.Sublist.flatMap_right shards
        (fun _ _ => truncate_sublist limit _)
    have kept := (dedupByAircraft_perm circumstances.order sentOnce).length_eq
    exact congrArg some (Nat.sub_eq_zero_of_le kept.ge)

end Slices

/-! ## The matches of one shard -/

section Matches

variable [LinearOrder real] {rules : TextRules}

theorem mem_documents_of_hit (arith : Arithmetic real)
    (floats : FloatRules real) (shard : AnsweringShard rules vectors)
    (query : String) (filter : Option (Common.Filter real))
    (doc : FlightDocument real) :
    (∃ hit ∈ shard.matching arith floats query filter,
        hit.document = some doc) ↔
      shard.documents[doc.icao24]? = some doc ∧
        mentions rules query doc = true ∧
        Filter.passes floats doc filter = true := by
  have scanned : doc ∈ (scan rules arith shard.documents query 0).hits.map
        ScoredHit.doc ↔
      shard.documents[doc.icao24]? = some doc ∧
        mentions rules query doc = true := by
    have stored := InvertedIndex.Represents.documents_perm shard.holds
    rw [(map_doc_scan_perm rules arith query).mem_iff, List.mem_filter,
      ← stored.mem_iff]
    exact and_congr_left fun _ => shard.holds.mem_documents
  rw [← and_assoc, ← scanned, AnsweringShard.matching,
    ShardSearchService.matching]
  simp only [List.mem_map, List.mem_filter]
  constructor
  · intro shown
    rcases shown with ⟨hit, ⟨scored, ⟨member, passes⟩, rfl⟩, document⟩
    rw [ShardSearchService.hit, Option.some.injEq] at document
    exact ⟨⟨scored, member, document⟩, document ▸ passes⟩
  · intro held
    rcases held with ⟨⟨scored, member, rfl⟩, passes⟩
    exact ⟨_, ⟨scored, ⟨member, passes⟩, rfl⟩, rfl⟩

/-- A shard matches an aircraft at most once. -/
theorem matching_once (arith : Arithmetic real) (floats : FloatRules real)
    (shard : AnsweringShard rules vectors) (query : String)
    (filter : Option (Common.Filter real)) :
    ((shard.matching arith floats query filter).map icao24Of).Nodup := by
  have scanned := ((map_doc_scan_perm rules arith query).map
    FlightDocument.icao24).nodup_iff.mpr
      ((InvertedIndex.Represents.liveDocs_once shard.holds).sublist
        (List.filter_sublist.map _))
  rw [List.map_map] at scanned
  rw [AnsweringShard.matching, ShardSearchService.matching, List.map_map]
  exact scanned.sublist (List.filter_sublist.map _)

/-- Every match carries its document. -/
theorem document_of_matching {arith : Arithmetic real}
    {floats : FloatRules real} {shard : AnsweringShard rules vectors}
    {query : String} {filter : Option (Common.Filter real)}
    {hit : SearchHit real}
    (member : hit ∈ shard.matching arith floats query filter) :
    ∃ doc, hit.document = some doc ∧ icao24Of hit = doc.icao24 := by
  rw [AnsweringShard.matching, ShardSearchService.matching,
    List.mem_map] at member
  obtain ⟨scored, -, rfl⟩ := member
  exact ⟨scored.doc, rfl, rfl⟩

end Matches

/-! ## The matches of the cluster -/

section Search

variable [LinearOrder real] {rules : TextRules}

/-- Every match of every shard. -/
def found (arith : Arithmetic real) (floats : FloatRules real)
    (shards : List (SlicedShard rules vectors))
    (request : SearchRequest real) : List (SearchHit real) :=
  shards.flatMap (fun sliced =>
    sliced.shard.matching arith floats request.query request.filter)

theorem mem_found (arith : Arithmetic real) (floats : FloatRules real)
    (shards : List (SlicedShard rules vectors))
    (request : SearchRequest real) (doc : FlightDocument real) :
    (∃ hit ∈ found arith floats shards request, hit.document = some doc) ↔
      Latest shards doc ∧ mentions rules request.query doc = true ∧
        Filter.passes floats doc request.filter = true := by
  have ofShard := fun sliced : SlicedShard rules vectors =>
    mem_documents_of_hit arith floats sliced.shard request.query
      request.filter doc
  rw [← exists_held_iff]
  constructor
  · intro shown
    rcases shown with ⟨hit, member, document⟩
    obtain ⟨sliced, inside, matched⟩ := List.mem_flatMap.mp member
    obtain ⟨held, wanted⟩ := (ofShard sliced).mp ⟨hit, matched, document⟩
    exact ⟨⟨sliced, inside, held⟩, wanted⟩
  · intro wanted
    rcases wanted with ⟨⟨sliced, inside, held⟩, wanted⟩
    obtain ⟨hit, matched, document⟩ := (ofShard sliced).mpr ⟨held, wanted⟩
    exact ⟨hit, List.mem_flatMap.mpr ⟨sliced, inside, matched⟩, document⟩

/-- Shards of different slices match different aircraft. -/
theorem found_once (arith : Arithmetic real) (floats : FloatRules real)
    {shards : List (SlicedShard rules vectors)} (apart : Apart shards)
    (request : SearchRequest real) :
    ((found arith floats shards request).map icao24Of).Nodup := by
  refine slices_once icao24Of _ ?_ (fun _ => matching_once ..) apart
  intro sliced hit matched
  obtain ⟨doc, document, docIs⟩ := document_of_matching matched
  have held := ((mem_documents_of_hit arith floats sliced.shard request.query
    request.filter doc).mp ⟨hit, matched, document⟩).1
  rw [docIs, held]
  exact Option.some_ne_none doc

theorem sum_toUInt64 (counts : List Nat) :
    (counts.map Nat.toUInt64).sum = counts.sum.toUInt64 := by
  induction counts with
  | nil =>
      rfl
  | cons first rest inductionHypothesis =>
      rw [List.map_cons, List.sum_cons, inductionHypothesis, List.sum_cons]
      exact (UInt64.ofNat_add first rest.sum).symm

/-- A search that exactly these shards answer shows the best hits among one hit
for each wanted aircraft.  All of them are counted, and there are no copies to
drop. -/
theorem sliced_search (arith : Arithmetic real)
    (cluster : Cluster rules vectors) (service : CoordinatorService)
    (call : QueryCall real) (floats : FloatRules real)
    {authorization : Option String} {request : SearchRequest real}
    (authorized : service.auth.require authorization .read = .ok ())
    (accepted : checkFilter floats request.filter = .ok ())
    {shards : List (SlicedShard rules vectors)}
    (answering : cluster.answering service call =
      shards.map SlicedShard.shard)
    (apart : Apart shards) :
    ∃ response,
      (service.search floats (cluster.network arith floats) call authorization
        request).outcome = .ok response ∧
      response.hits = truncate request.limit.toNat
        (sortHits (found arith floats shards request)) ∧
      response.totalMatched =
        (found arith floats shards request).length.toUInt64 ∧
      response.manifest.map QueryManifest.deduped = some 0 := by
  obtain ⟨circumstances, answered⟩ :=
    cluster.search_eq arith service call floats request authorized accepted
  rw [answering, List.map_map] at answered
  obtain ⟨hits, deduped⟩ := merge_of_slices circumstances
    (fun sliced => sliced.shard.reply arith floats request)
    request.limit.toNat (found_once arith floats apart request)
    (fun sliced => sortHits_matching sliced.shard.service
      sliced.shard.documents arith floats request.query request.filter)
    (fun _ _ => rfl)
  refine ⟨_, answered, hits, ?_, deduped⟩
  rw [found, List.length_flatMap, ← sum_toUInt64, List.map_map]
  exact congrArg List.sum (List.map_map ..)

end Search

/-! ## Aggregates of the cluster -/

section Aggregates

variable [LinearOrder real] {rules : TextRules}

/-- A network whose leaders answer aggregates as the shards' handler does. -/
def aggregating (isWhitespace : Char → Bool) (arith : Arithmetic real)
    (digests : DigestFloats real) (floats : FloatRules real)
    (text : BucketText real) (cluster : Cluster rules vectors) :
    Network real :=
  { cluster.network arith floats with
    aggregate := fun number address request =>
      match cluster.reached number address with
      | .error failure => failure.attempt
      | .ok shard =>
          match shard.service.aggregate isWhitespace rules arith digests
            floats text shard.order request with
          | some outcome => .answered outcome
          | none => .unreachable }

/-- The documents of a shard that an aggregate is over. -/
def aggregated (isWhitespace : Char → Bool) (arith : Arithmetic real)
    (floats : FloatRules real) (shard : AnsweringShard rules vectors)
    (request : AggregateRequest real) :
    List (FlightDocument real) :=
  (if request.query.toList.all isWhitespace then
      shard.service.store.documents
    else
      (scan rules arith shard.documents request.query 0).hits.map
        ScoredHit.doc).filter
          (fun doc => Filter.passes floats doc request.filter)

/-- An aggregate is over the documents that mention its query; a blank query
asks for all. -/
def Wanted (isWhitespace : Char → Bool) (rules : TextRules)
    (floats : FloatRules real) (request : AggregateRequest real)
    (doc : FlightDocument real) : Prop :=
  (request.query.toList.all isWhitespace = true ∨
      mentions rules request.query doc = true) ∧
    Filter.passes floats doc request.filter = true

private theorem mem_aggregated (isWhitespace : Char → Bool)
    (arith : Arithmetic real) (floats : FloatRules real)
    (shard : AnsweringShard rules vectors)
    (request : AggregateRequest real)
    (doc : FlightDocument real) :
    doc ∈ aggregated isWhitespace arith floats shard request ↔
      shard.documents[doc.icao24]? = some doc ∧
        Wanted isWhitespace rules floats request doc := by
  have stored : doc ∈ shard.service.store.documents ↔
      shard.documents[doc.icao24]? = some doc := shard.holds.mem_documents
  rw [aggregated, List.mem_filter, Wanted, ← and_assoc]
  refine and_congr_left fun _ => ?_
  by_cases blank : request.query.toList.all isWhitespace = true
  · rw [if_pos blank, stored]
    exact (and_iff_left (.inl blank)).symm
  · have live := InvertedIndex.Represents.documents_perm shard.holds
    rw [if_neg blank, (map_doc_scan_perm rules arith request.query).mem_iff,
      List.mem_filter, ← live.mem_iff]
    exact and_congr stored (or_iff_right blank).symm

private theorem aggregated_once (isWhitespace : Char → Bool)
    (arith : Arithmetic real) (floats : FloatRules real)
    (shard : AnsweringShard rules vectors)
    (request : AggregateRequest real) :
    ((aggregated isWhitespace arith floats shard request).map
      FlightDocument.icao24).Nodup := by
  rw [aggregated]
  refine List.Nodup.sublist (List.filter_sublist.map _) ?_
  split
  · exact InvertedIndex.Represents.documents_once shard.holds
  · refine ((map_doc_scan_perm rules arith request.query).map
      FlightDocument.icao24).nodup_iff.mpr ?_
    exact (InvertedIndex.Represents.liveDocs_once shard.holds).sublist
      (List.filter_sublist.map _)

/-- The partial a task of the fan-out brings, if any. -/
def partialOf (isWhitespace : Char → Bool) (arith : Arithmetic real)
    (digests : DigestFloats real) (floats : FloatRules real)
    (text : BucketText real) (cluster : Cluster rules vectors)
    (request : AggregateRequest real) (task : String × Nat) :
    Option (AggregatePartial real) :=
  (answerOf
    (((aggregating isWhitespace arith digests floats text cluster).aggregate
      task.2 task.1 request).joined task.1)).bind AggregateResponse.summary

/-- The coordinator answers with the merge of the partials that arrive. -/
theorem aggregate_answers (isWhitespace : Char → Bool)
    (arith : Arithmetic real) (digests : DigestFloats real)
    (cluster : Cluster rules vectors) (service : CoordinatorService)
    (call : QueryCall real) (buckets : IterationOrder (String × UInt64))
    (floats : FloatRules real) (text : BucketText real)
    {authorization : Option String} {request : AggregateRequest real}
    (authorized : service.auth.require authorization .read = .ok ())
    (accepted : checkFilter floats request.filter = .ok ())
    {merged : AggregatePartial real}
    {percentiles : List (Percentile real)}
    (mergedIs : mergePartials digests buckets request.kind
      ((call.arrival.arrange
        (service.registry.leaderAddresses call.leaders).zipIdx).filterMap
          (partialOf isWhitespace arith digests floats text cluster request))
      request.percentiles = some (merged, percentiles)) :
    ∃ response,
      (service.aggregate digests floats
        (aggregating isWhitespace arith digests floats text cluster) call
        buckets authorization request).outcome = .ok (some response) ∧
      response.summary = some merged := by
  have arrived : (scatterAggregate call.arrival
      (fun number address =>
        (aggregating isWhitespace arith digests floats text cluster).aggregate
          number address request)
      (service.registry.leaderAddresses call.leaders)).1 =
      (call.arrival.arrange
        (service.registry.leaderAddresses call.leaders).zipIdx).filterMap
          (partialOf isWhitespace arith digests floats text cluster
            request) := by
    rw [scatterAggregate, joinAll, List.filterMap_filterMap,
      List.filterMap_map]
    rfl
  rw [← arrived] at mergedIs
  simp only [CoordinatorService.aggregate, admitted, authorized, accepted,
    mergedIs, Option.map_some]
  exact ⟨_, rfl, rfl⟩

end Aggregates

section ExactAggregates

variable {K : Type} [Field K] [LinearOrder K] [IsStrictOrderedRing K]
variable [LinearOrder (Double K)]
variable {rules : TextRules} {vectors : VectorSide (Double K)}

/-- A shard's partial stands for the documents the aggregate is over. -/
theorem aggregate_summarizes (isWhitespace : Char → Bool)
    (arith : Arithmetic (Double K)) (scale : K → K → K)
    (floats : FloatRules (Double K)) (text : BucketText (Double K))
    (shard : AnsweringShard rules vectors)
    (request : AggregateRequest (Double K))
    (accepted : checkFilter floats request.filter = .ok ()) :
    ∃ summary,
      shard.service.aggregate isWhitespace rules arith (exactFloats scale)
          floats text shard.order request =
        some (.ok
          { summary := some summary, percentiles := [], manifest := none }) ∧
      Summarizes floats text request summary
        (aggregated isWhitespace arith floats shard request) := by
  obtain ⟨summary, passed, summarizes⟩ :
      ∃ summary, summarize (exactFloats scale) floats text
          (aggregated isWhitespace arith floats shard request) request =
            some summary ∧
        Summarizes floats text request summary
          (aggregated isWhitespace arith floats shard request) :=
    summarizes_summarize scale _
  refine ⟨summary, ?_, summarizes⟩
  have matched : shard.service.store.matching isWhitespace rules arith
      shard.order request.query =
        some (if request.query.toList.all isWhitespace then
          shard.service.store.documents
        else
          (scan rules arith shard.documents request.query 0).hits.map
            ScoredHit.doc) := by
    have answers : shard.service.store.search rules arith shard.order
        request.query 0 = some (scan rules arith shard.documents request.query
          0) :=
      InvertedIndex.Represents.search shard.holds arith shard.order _ 0
    rw [ShardStore.matching]
    split
    · rfl
    · rw [answers]
      rfl
  rw [aggregated] at passed
  simp only [ShardSearchService.aggregate, accepted, matched, passed,
    Option.bind_eq_bind, Option.bind_some]

/-- The partials that arrive stand for the documents of the shards that
answer. -/
theorem partials_summarize (isWhitespace : Char → Bool)
    (arith : Arithmetic (Double K)) (scale : K → K → K)
    (floats : FloatRules (Double K)) (text : BucketText (Double K))
    (cluster : Cluster rules vectors)
    (request : AggregateRequest (Double K))
    (accepted : checkFilter floats request.filter = .ok ())
    (tasks : List (String × Nat)) :
    List.Forall₂ (Summarizes floats text request)
      (tasks.filterMap (partialOf isWhitespace arith (exactFloats scale) floats
        text cluster request))
      ((tasks.filterMap (fun task =>
        (cluster.reached task.2 task.1).toOption)).map (fun shard =>
          aggregated isWhitespace arith floats shard request)) := by
  induction tasks with
  | nil =>
      exact .nil
  | cons task rest inductionHypothesis =>
      cases reached : cluster.reached task.2 task.1 with
      | error failure =>
          have missing : partialOf isWhitespace arith (exactFloats scale)
              floats text cluster request task = none := by
            cases failure <;>
              simp [partialOf, aggregating, reached, Failure.attempt,
                Attempt.joined, answerOf]
          have unreached :
              (cluster.reached task.2 task.1).toOption = none := by
            rw [reached]
            rfl
          simp only [List.filterMap_cons, missing, unreached]
          exact inductionHypothesis
      | ok shard =>
          obtain ⟨summary, answered, summarizes⟩ :=
            aggregate_summarizes isWhitespace arith scale floats text shard
              request accepted
          have sent : partialOf isWhitespace arith (exactFloats scale) floats
              text cluster request task = some summary := by
            simp [partialOf, aggregating, reached, answered, Attempt.joined,
              answerOf]
          have reachedShard :
              (cluster.reached task.2 task.1).toOption = some shard := by
            rw [reached]
            rfl
          simp only [List.filterMap_cons, sent, reachedShard]
          exact .cons summarizes inductionHypothesis

/-- An aggregate that exactly these shards answer is the aggregate of one table
with the latest observations. -/
theorem sliced_aggregate (isWhitespace : Char → Bool)
    (arith : Arithmetic (Double K)) (scale : K → K → K)
    (cluster : Cluster rules vectors) (service : CoordinatorService)
    (call : QueryCall (Double K)) (buckets : IterationOrder (String × UInt64))
    (floats : FloatRules (Double K)) (text : BucketText (Double K))
    {authorization : Option String} {request : AggregateRequest (Double K)}
    (authorized : service.auth.require authorization .read = .ok ())
    (accepted : checkFilter floats request.filter = .ok ())
    {shards : List (SlicedShard rules vectors)}
    (answering : cluster.answering service call =
      shards.map SlicedShard.shard)
    (apart : Apart shards) :
    ∃ response merged docs,
      (service.aggregate (exactFloats scale) floats
        (aggregating isWhitespace arith (exactFloats scale) floats text
          cluster) call buckets authorization request).outcome =
        .ok (some response) ∧
      response.summary = some merged ∧
      Summarizes floats text request merged docs ∧
      (docs.map FlightDocument.icao24).Nodup ∧
      (∀ doc, doc ∈ docs ↔
        Latest shards doc ∧
          Wanted isWhitespace rules floats request doc) := by
  have summarize := partials_summarize isWhitespace arith scale floats text
    cluster request accepted
    (call.arrival.arrange
      (service.registry.leaderAddresses call.leaders).zipIdx)
  rw [← Cluster.answering, answering, List.map_map] at summarize
  obtain ⟨merged, percentiles, mergedIs, summarizes⟩ :=
    summarizes_mergePartials scale buckets request.percentiles summarize
  obtain ⟨response, answered, summary⟩ := aggregate_answers isWhitespace arith
    (exactFloats scale) cluster service call buckets floats text authorized
    accepted mergedIs
  rw [← List.flatMap_def] at summarizes
  refine ⟨response, merged, _, answered, summary, summarizes, ?_, ?_⟩
  · refine slices_once FlightDocument.icao24 _ ?_
      (fun sliced => aggregated_once ..) apart
    intro sliced doc member
    rw [((mem_aggregated ..).mp member).1]
    exact Option.some_ne_none doc
  · intro doc
    have ofShard := fun sliced : SlicedShard rules vectors =>
      mem_aggregated isWhitespace arith floats sliced.shard request doc
    rw [← exists_held_iff, List.mem_flatMap]
    simp only [Function.comp_apply, ofShard, ← and_assoc, exists_and_right]

end ExactAggregates

end AetherEngine.Cluster
