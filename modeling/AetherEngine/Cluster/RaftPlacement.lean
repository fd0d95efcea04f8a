import AetherEngine.Cluster.Placement
import AetherEngine.Shard.RaftDurability

/-!
# A cluster of Raft groups, from ingestion to search

Every shard is a Raft group, and a member of it answers from what it has applied
of the group's log, however far that is.  While the placement stays as it is the
answers make up one table.  While it moves a search still shows no aircraft
twice, and nothing but what a leader has fetched for its group.
-/

namespace AetherEngine.Cluster

open AetherEngine.Common
open AetherEngine.Coordinator
open AetherEngine.Doubles
open AetherEngine.Federation
open AetherEngine.Ranking
open AetherEngine.Shard
open AetherEngine.Shard.RaftGroup (KeepsSlice Kept)
open AetherEngine.Traces
open AetherEngine.Upserts

variable {real : Type} {rules : TextRules} {vectors : VectorSide real}
variable {Member : Type} [DecidableEq Member]

/-- A shard that serves what one member of its Raft group has applied. -/
structure GroupShard (rules : TextRules) (vectors : VectorSide real)
    (Member : Type) [DecidableEq Member] where
  shard : AnsweringShard rules vectors
  ownership : Member → Ownership
  events : List (RaftGroupEvent real Member)
  group : RaftGroup rules vectors Member
  leads : Leads RaftGroup.step (.begin ownership) events group
  member : Member
  serves : shard.service.store = (group.member member).copy.state.store

/-- A group whose slice stays the same. -/
structure SteadyShard (rules : TextRules) (vectors : VectorSide real)
    (Member : Type) [DecidableEq Member] extends
    GroupShard rules vectors Member where
  mine : Ownership
  shared : ownership = fun _ => mine
  fixed : ∀ event ∈ events, KeepsSlice mine event

namespace GroupShard

theorem documents_eq (served : GroupShard rules vectors Member) :
    served.shard.documents =
      (served.group.member served.member).copy.state.contents := by
  rw [HeldStore.contents, ← served.serves, served.shard.holds.contents_eq]

end GroupShard

namespace SteadyShard

/-- The shard with its slice. -/
def sliced (steady : SteadyShard rules vectors Member) :
    SlicedShard rules vectors where
  shard := steady.shard
  owns := steady.mine.owns
  considered := steady.group.appliedDocs steady.member
  holdsSlice := by
    have leads := steady.leads
    rw [steady.shared] at leads
    intro aircraft
    rw [steady.documents_eq]
    by_cases owns : steady.mine.owns aircraft = true
    · rw [if_pos owns]
      exact RaftGroup.getElem?_contents_of_owns leads steady.fixed
        steady.member owns
    · rw [if_neg owns, Option.eq_none_iff_forall_ne_some]
      intro doc shown
      exact owns (RaftGroup.owns_of_shown leads steady.fixed shown)

theorem map_sliced (groups : List (SteadyShard rules vectors Member)) :
    (groups.map sliced).map SlicedShard.shard =
      groups.map (fun steady => steady.shard) := by
  rw [List.map_map]
  rfl

end SteadyShard

/-- Two groups of one table own different aircraft. -/
theorem owns_mapped_apart {first second : UInt32} (different : first ≠ second)
    {table : List UInt32} {aircraft : String}
    (owns : (Ownership.mapped first table).owns aircraft = true) :
    (Ownership.mapped second table).owns aircraft = false := by
  rw [Ownership.owns] at owns ⊢
  split at owns
  · contradiction
  · rw [if_neg ‹_›]
    rw [decide_eq_true_eq] at owns
    rw [decide_eq_false_iff_not, owns, Option.some.injEq]
    exact different

/-! ## While the placement stays -/

section Search

variable [LinearOrder real]

/-- A search of Raft groups with fixed slices, when these groups and no others
answer, each by any of its members, shows the best hits among one hit for each
wanted aircraft: the last document of its group's applied batches, if that
mentions the query and passes the filter.  All of them are counted, and there
are no copies to drop. -/
theorem steady_search_exact (arith : Arithmetic real)
    (cluster : Cluster rules vectors) (service : CoordinatorService)
    (call : QueryCall real) (floats : FloatRules real)
    (authorization : Option String) (request : SearchRequest real)
    (authorized : service.auth.require authorization .read = .ok ())
    (accepted : checkFilter floats request.filter = .ok ())
    (groups : List (SteadyShard rules vectors Member))
    (answering : cluster.answering service call =
      groups.map (fun steady => steady.shard))
    (apart : groups.Pairwise (fun first second => ∀ aircraft,
      first.mine.owns aircraft = true → second.mine.owns aircraft = false)) :
    let shards := groups.map SteadyShard.sliced
    ∃ response,
      (service.search floats (cluster.network arith floats) call authorization
        request).outcome = .ok response ∧
      response.hits = truncate request.limit.toNat
        (sortHits (found arith floats shards request)) ∧
      response.totalMatched =
        (found arith floats shards request).length.toUInt64 ∧
      response.manifest.map QueryManifest.deduped = some 0 ∧
      ((found arith floats shards request).map icao24Of).Nodup ∧
      (∀ doc, (∃ hit ∈ found arith floats shards request,
          hit.document = some doc) ↔
        Latest shards doc ∧ mentions rules request.query doc = true ∧
          Filter.passes floats doc request.filter = true) := by
  have slicesApart : Apart (groups.map SteadyShard.sliced) :=
    List.pairwise_map.mpr apart
  have sameShards := answering.trans (SteadyShard.map_sliced groups).symm
  obtain ⟨response, answered, hits, total, deduped⟩ := sliced_search arith
    cluster service call floats authorized accepted sameShards slicesApart
  exact ⟨response, answered, hits, total, deduped,
    found_once arith floats slicesApart request,
    mem_found arith floats _ request⟩

end Search

section ExactAggregates

variable {K : Type} [Field K] [LinearOrder K] [IsStrictOrderedRing K]
variable [LinearOrder (Double K)] {vectors : VectorSide (Double K)}

/-- An aggregate of Raft groups with fixed slices, when these groups and no
others answer, each by any of its members, is the aggregate of one table: for
each aircraft the last document of its group's applied batches. -/
theorem steady_aggregate_exact (isWhitespace : Char → Bool)
    (arith : Arithmetic (Double K)) (scale : K → K → K)
    (cluster : Cluster rules vectors) (service : CoordinatorService)
    (call : QueryCall (Double K)) (buckets : IterationOrder (String × UInt64))
    (floats : FloatRules (Double K)) (text : BucketText (Double K))
    (authorization : Option String) (request : AggregateRequest (Double K))
    (authorized : service.auth.require authorization .read = .ok ())
    (accepted : checkFilter floats request.filter = .ok ())
    (groups : List (SteadyShard rules vectors Member))
    (answering : cluster.answering service call =
      groups.map (fun steady => steady.shard))
    (apart : groups.Pairwise (fun first second => ∀ aircraft,
      first.mine.owns aircraft = true → second.mine.owns aircraft = false)) :
    ∃ response merged docs,
      (service.aggregate (exactFloats scale) floats
        (aggregating isWhitespace arith (exactFloats scale) floats text
          cluster) call buckets authorization request).outcome =
        .ok (some response) ∧
      response.summary = some merged ∧
      Summarizes floats text request merged docs ∧
      (docs.map FlightDocument.icao24).Nodup ∧
      (∀ doc, doc ∈ docs ↔
        Latest (groups.map SteadyShard.sliced) doc ∧
          Wanted isWhitespace rules floats request doc) := by
  have sameShards := answering.trans (SteadyShard.map_sliced groups).symm
  exact sliced_aggregate isWhitespace arith scale cluster service call buckets
    floats text authorized accepted sameShards (List.pairwise_map.mpr apart)

end ExactAggregates

/-! ## While the placement moves -/

section Moving

variable [LinearOrder real]

/-- Whatever the groups have been through, a search that members of these groups
and no others answer shows no aircraft twice, and only documents that mention the
query, pass the filter, and were fetched by a member that owned them at that
moment.  Without a limit each document that an answering member shows and that
matches is shown, or a copy of its aircraft that is no older. -/
theorem moving_search_sound (arith : Arithmetic real)
    (cluster : Cluster rules vectors) (service : CoordinatorService)
    (call : QueryCall real) (floats : FloatRules real)
    (authorization : Option String) (request : SearchRequest real)
    (authorized : service.auth.require authorization .read = .ok ())
    (accepted : checkFilter floats request.filter = .ok ())
    (groups : List (GroupShard rules vectors Member))
    (answering : cluster.answering service call =
      groups.map GroupShard.shard) :
    ∃ response,
      (service.search floats (cluster.network arith floats) call authorization
        request).outcome = .ok response ∧
      (response.hits.map icao24Of).Nodup ∧
      (∀ hit ∈ response.hits, ∃ doc, hit.document = some doc ∧
        mentions rules request.query doc = true ∧
        Filter.passes floats doc request.filter = true ∧
        ∃ served ∈ groups, Kept rules vectors served.ownership served.events
          doc) ∧
      (request.limit = 0 → ∀ served ∈ groups, ∀ doc,
        (served.group.member served.member).copy.state.contents[doc.icao24]? =
          some doc →
        mentions rules request.query doc = true →
        Filter.passes floats doc request.filter = true →
        ∃ hit ∈ response.hits, icao24Of hit = doc.icao24 ∧
          doc.observedAt ≤ observedAtOf hit) := by
  obtain ⟨circumstances, answered⟩ :=
    cluster.search_eq arith service call floats request authorized accepted
  rw [answering] at answered
  refine ⟨_, answered, ?_, ?_, ?_⟩
  · have once := sortHits_dedup_once circumstances.order
      (hitsOf ((groups.map GroupShard.shard).map
        (fun shard => shard.reply arith floats request)))
    exact once.sublist
      ((truncate_sublist request.limit.toNat _).map icao24Of)
  · intro hit member
    have sent := MergeCall.mem_hits_merge member
    simp only [hitsOf, List.flatMap_map, List.mem_flatMap] at sent
    obtain ⟨served, inside, shown⟩ := sent
    have matched := mem_of_mem_truncate shown
    obtain ⟨doc, document, -⟩ := document_of_matching matched
    obtain ⟨held, mentioned, passes⟩ := (mem_documents_of_hit arith floats
      served.shard request.query request.filter doc).mp
        ⟨hit, matched, document⟩
    rw [served.documents_eq] at held
    exact ⟨doc, document, mentioned, passes, served, inside,
      RaftGroup.kept_of_shown served.leads held⟩
  · intro unlimited served inside doc held mentioned passes
    rw [← served.documents_eq] at held
    obtain ⟨matching, matched, document⟩ := (mem_documents_of_hit arith floats
      served.shard request.query request.filter doc).mpr
        ⟨held, mentioned, passes⟩
    have isDoc : copyOf matching =
        (doc.icao24, toLex (doc.observedAt, matching.score)) := by
      rw [copyOf, icao24Of, observedAtOf, document]
      rfl
    have copied : copyOf matching ∈
        heldCopies arith floats (groups.map GroupShard.shard) request :=
      List.mem_flatMap.mpr ⟨served.shard, List.mem_map_of_mem inside,
        List.mem_map_of_mem matched⟩
    obtain ⟨best, isBest, sameAircraft, above⟩ := exists_isBest copied
    have noLimit : request.limit.toNat = 0 := by
      rw [unlimited]
      rfl
    have shown : best ∈ (circumstances.merge ((groups.map
        GroupShard.shard).map (fun shard => shard.reply arith floats request))
        request.limit.toNat).hits.map copyOf := by
      rw [MergeCall.copies_merge, copiesOf_replies, noLimit, truncate_zero,
        mem_ranking, sentCopies_of_unlimited arith floats _ noLimit]
      exact isBest
    obtain ⟨hit, member, isBestHit⟩ := List.mem_map.mp shown
    rw [← isBestHit, isDoc] at sameAircraft above
    exact ⟨hit, member, sameAircraft, time_le_of_le above⟩

end Moving

/-! ## Two groups of one table -/

namespace TwoGroups

open AetherEngine.Coordinator.Move (latin rational rationalFloats coordinator
  query)
open TwoSlices (passes noVectors network call answering_network totalOrder
  flatScores sampleRules sampleText countByOrigin)

/-- The first member ingests a snapshot of two documents, of which the group
owns one. -/
def ingested (docs : List (FlightDocument real)) :
    List (RaftGroupEvent real Bool) :=
  [.acts true .lead, .acts true (.fetch (.ok docs)), .acts true .consider,
    .acts true .consider, .propose true, .commit 0, .applyNext true passes]

def ingestedBy (docs : List (FlightDocument real)) (mine : Ownership) :
    Option (RaftGroup latin (noVectors real) Bool) :=
  replay RaftGroup.step (.begin fun _ => mine) (ingested docs)

/-- The first member answers. -/
def served (docs : List (FlightDocument real)) (mine : Ownership)
    (runs : (ingestedBy docs mine).isSome = true) :
    GroupShard latin (noVectors real) Bool where
  shard :=
    { service :=
        { store :=
            (((ingestedBy docs mine).get runs).member true).copy.state.store
          shardId := "group"
          assignments := none }
      documents :=
        (((ingestedBy docs mine).get runs).member true).copy.state.contents
      holds := (((ingestedBy docs mine).get
        runs).member true).copy.state.holds_contents
      order := .asStored }
  ownership := fun _ => mine
  events := ingested docs
  group := (ingestedBy docs mine).get runs
  leads := (Option.some_get runs).symm
  member := true
  serves := rfl

theorem keepsSlice_ingested (docs : List (FlightDocument real))
    (mine : Ownership) : ∀ event ∈ ingested docs, KeepsSlice mine event := by
  simp [ingested, KeepsSlice]

def steady (docs : List (FlightDocument real)) (mine : Ownership)
    (runs : (ingestedBy docs mine).isSome = true) :
    SteadyShard latin (noVectors real) Bool :=
  { served docs mine runs with
    mine := mine
    shared := rfl
    fixed := keepsSlice_ingested docs mine }

/-! ### Searched -/

def first : SteadyShard latin (noVectors Rat) Bool :=
  steady TwoSlices.sightings (.mapped 0 [0, 1]) (by decide +kernel)

def second : SteadyShard latin (noVectors Rat) Bool :=
  steady TwoSlices.sightings (.mapped 1 [0, 1]) (by decide +kernel)

private theorem first_apart : [first, second].Pairwise (fun first second =>
    ∀ aircraft, first.mine.owns aircraft = true →
      second.mine.owns aircraft = false) := by
  rw [List.pairwise_pair]
  exact fun aircraft owns => owns_mapped_apart (by decide) owns

theorem steady_search_exact_twoGroups :
    ∃ response,
      (coordinator.search rationalFloats
        ((network first.shard second.shard).network rational rationalFloats)
        (call Rat) none (query 1 none)).outcome = .ok response ∧
      response.totalMatched = 2 ∧
      response.manifest.map QueryManifest.deduped = some 0 := by
  have matched : (found rational rationalFloats
      ([first, second].map SteadyShard.sliced) (query 1 none)).length = 2 := by
    decide +kernel
  obtain ⟨response, answered, -, total, deduped, -⟩ :=
    steady_search_exact rational (network first.shard second.shard)
      coordinator (call Rat) rationalFloats none (query 1 none) rfl rfl
      [first, second] (answering_network first.shard second.shard) first_apart
  rw [matched] at total
  exact ⟨response, answered, total, deduped⟩

/-! ### Aggregated -/

def third : SteadyShard latin (noVectors (Double Rat)) Bool :=
  steady TwoSlices.departures (.mapped 0 [0, 1]) (by decide +kernel)

def fourth : SteadyShard latin (noVectors (Double Rat)) Bool :=
  steady TwoSlices.departures (.mapped 1 [0, 1]) (by decide +kernel)

private theorem third_apart : [third, fourth].Pairwise (fun first second =>
    ∀ aircraft, first.mine.owns aircraft = true →
      second.mine.owns aircraft = false) := by
  rw [List.pairwise_pair]
  exact fun aircraft owns => owns_mapped_apart (by decide) owns

theorem steady_aggregate_exact_twoGroups :
    letI := totalOrder
    ∃ response merged docs,
      (coordinator.aggregate (exactFloats (fun _ q => q)) sampleRules
        (aggregating Char.isWhitespace flatScores
          (exactFloats (fun _ q => q)) sampleRules sampleText
          (network third.shard fourth.shard)) (call (Double Rat)) .asStored
        none countByOrigin).outcome = .ok (some response) ∧
      response.summary = some merged ∧
      Summarizes sampleRules sampleText countByOrigin merged docs := by
  let := totalOrder
  obtain ⟨response, merged, docs, answered, summary, summarizes, -⟩ :=
    steady_aggregate_exact Char.isWhitespace flatScores (fun _ q => q)
      (network third.shard fourth.shard) coordinator (call (Double Rat))
      .asStored sampleRules sampleText none countByOrigin rfl rfl
      [third, fourth] (answering_network third.shard fourth.shard) third_apart
  exact ⟨response, merged, docs, answered, summary, summarizes⟩

/-! ### Searched during a move -/

/-- The second group has learnt that it is given the first virtual shard too. -/
def entering : GroupShard latin (noVectors Rat) Bool :=
  served [Move.sighting "aaa" 200 0, Move.sighting "bbb" 90 0]
    (.mapped 1 [1, 1]) (by decide +kernel)

theorem moving_search_sound_twoGroups :
    ∃ response,
      (coordinator.search rationalFloats
        ((network first.shard entering.shard).network rational rationalFloats)
        (call Rat) none (query 0 none)).outcome = .ok response ∧
      (response.hits.map icao24Of).Nodup ∧
      ∃ hit ∈ response.hits, icao24Of hit = "aaa" ∧
        200 ≤ observedAtOf hit := by
  obtain ⟨response, answered, once, -, shown⟩ :=
    moving_search_sound rational (network first.shard entering.shard)
      coordinator (call Rat) rationalFloats none (query 0 none) rfl rfl
      [first.toGroupShard, entering]
      (answering_network first.shard entering.shard)
  refine ⟨response, answered, once, ?_⟩
  exact shown rfl entering (by simp) (Move.sighting "aaa" 200 0) rfl
    (by decide +kernel) rfl

end TwoGroups

end AetherEngine.Cluster
