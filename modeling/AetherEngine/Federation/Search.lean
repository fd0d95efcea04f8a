import AetherEngine.Coordinator.Overlap

/-!
# Federated search

One query fanned out to several clusters, each cluster's merged answer folded in
as if it came from a shard.  Over disjoint slices the best hits survive the
shard's limit, the coordinator's and the federation's.
-/

namespace AetherEngine.Federation

open AetherEngine.Common
open AetherEngine.Coordinator
open AetherEngine.Ranking
open AetherEngine.Shard

variable {real : Type} [LinearOrder real]

/-- Federate a search across clusters; the manifest counts clusters. -/
def federateSearch (order : IterationOrder (SearchHit real))
    (arrival : IterationOrder (String × Nat)) (elapsedMs : UInt64)
    (network :
      Nat → String → SearchRequest real → Attempt (SearchResponse real))
    (clusters : List String) (request : SearchRequest real) :
    SearchResponse real :=
  let outcomes := joinAll arrival
    (fun number address => network number address request) clusters
  let replies := outcomes.filterMap answerOf
  let omitted := outcomes.filterMap omissionOf
  let merged := mergeSearchResponses order ⟨replies, omitted⟩
    request.limit.toNat clusters.length 0 0
  { merged with
    shardId := "federation"
    shardsQueried := clusters.length
    shardsAnswered := replies.length
    manifest := some
      { shardsQueried := clusters.length
        shardsAnswered := replies.length
        omitted := omitted
        deduped := (merged.manifest.map QueryManifest.deduped).getD 0
        freshestObservedAt :=
          (merged.manifest.map QueryManifest.freshestObservedAt).getD 0
        stalestObservedAt :=
          (merged.manifest.map QueryManifest.stalestObservedAt).getD 0
        elapsedMs := elapsedMs
        placementVersion := 0 } }

/-! ## Slices -/

/-- The hits a shard has for a query, and what it answers besides its hits. -/
structure Slice (real : Type) where
  held : List (SearchHit real)
  envelope : SearchResponse real

/-- The shard answers with its best hits. -/
def Slice.reply (slice : Slice real) (limit : Nat) : SearchResponse real :=
  { slice.envelope with hits := truncate limit (sortHits slice.held) }

/-- The shards of one cluster, and the circumstances of its merge. -/
structure ClusterSlices (real : Type) where
  address : String
  circumstances : MergeCall real
  shards : List (Slice real)

namespace ClusterSlices

/-- The coordinator merges its shards' answers under the same limit. -/
def reply (cluster : ClusterSlices real) (limit : Nat) :
    SearchResponse real :=
  cluster.circumstances.merge
    (cluster.shards.map (fun slice => slice.reply limit)) limit

omit [LinearOrder real] in
def held (cluster : ClusterSlices real) : List (SearchHit real) :=
  cluster.shards.flatMap Slice.held

/-- Every cluster answers. -/
def network (clusters : List (ClusterSlices real)) :
    Nat → String → SearchRequest real → Attempt (SearchResponse real) :=
  fun number _ request =>
    match clusters[number]? with
    | some cluster => .answered (.ok (cluster.reply request.limit.toNat))
    | none => .unreachable

end ClusterSlices

/-! ## The best hits get through -/

/-- There is nothing to collapse among hits of distinct aircraft. -/
theorem dedupByAircraft_perm (order : IterationOrder (SearchHit real))
    {hits : List (SearchHit real)}
    (distinct : (hits.map icao24Of).Nodup) :
    (dedupByAircraft order hits).Perm hits := by
  have once := (condenses_dedupByAircraft order hits).once
  rw [List.map_map] at once
  rw [List.perm_ext_iff_of_nodup (List.Nodup.of_map icao24Of once)
    (List.Nodup.of_map icao24Of distinct)]
  intro hit
  constructor
  · exact mem_dedupByAircraft
  · intro member
    obtain ⟨winner, prevails, winnerIs⟩ := exists_prevails member
    have same := List.inj_on_of_nodup_map distinct prevails.mem member
      winnerIs
    rw [mem_dedupByAircraft_iff, ← same]
    exact prevails

/-- Cutting each group first does not change the best hits of all, in whatever
order the cut groups are collected. -/
theorem truncate_sortHits_collected (order : IterationOrder (SearchHit real))
    {groups : List (List (SearchHit real))} {limit : Nat}
    {collected : List (SearchHit real)}
    (distinct : (groups.flatten.map icao24Of).Nodup)
    (permuted : collected.Perm
      (groups.flatMap (fun group => truncate limit (sortHits group)))) :
    truncate limit (sortHits (dedupByAircraft order collected)) =
      truncate limit (sortHits groups.flatten) := by
  have fewer :
      (groups.flatMap
        (fun group => truncate limit (sortHits group))).Subperm
        groups.flatten := by
    clear distinct permuted
    induction groups with
    | nil =>
        exact List.Subperm.refl _
    | cons group rest inductionHypothesis =>
        rw [List.flatMap_cons, List.flatten_cons]
        refine List.Subperm.append ?_ inductionHypothesis
        exact (truncate_sublist limit _).subperm.trans
          (sortBy_perm _ group).subperm
  have collectedDistinct : (collected.map icao24Of).Nodup := by
    obtain ⟨kept, same, sublist⟩ := permuted.subperm.trans fewer
    exact (same.map icao24Of).nodup_iff.mp
      (distinct.sublist (sublist.map icao24Of))
  have collapsed := dedupByAircraft_perm order collectedDistinct
  have collapsedDistinct :=
    (collapsed.map icao24Of).nodup_iff.mpr collectedDistinct
  have sorted :=
    sortBy_eq_of_perm cmpHits_trans cmpHits_total (collapsed.trans permuted)
      (cmpHits_antisymm collapsedDistinct)
  rw [sortHits, sorted]
  exact truncate_sortBy_flatMap cmpHits_trans cmpHits_total groups limit
    (List.Nodup.of_map icao24Of distinct) (cmpHits_antisymm distinct)

private theorem hits_reply (cluster : ClusterSlices real) (limit : Nat)
    (distinct : (cluster.held.map icao24Of).Nodup) :
    (cluster.reply limit).hits = truncate limit (sortHits cluster.held) := by
  rw [ClusterSlices.held, List.flatMap_def] at distinct ⊢
  apply truncate_sortHits_collected cluster.circumstances.order distinct
  rw [List.flatMap_map, List.flatMap_map]
  rfl

theorem replies_federated (arrival : IterationOrder (String × Nat))
    (clusters : List (ClusterSlices real)) (request : SearchRequest real) :
    ((joinAll arrival
        (fun number address =>
          ClusterSlices.network clusters number address request)
        (clusters.map ClusterSlices.address)).filterMap answerOf).Perm
      (clusters.map (fun cluster => cluster.reply request.limit.toNat)) := by
  have tasks := ((arrival.perm
    (clusters.map ClusterSlices.address).zipIdx).map
      (fun task => (ClusterSlices.network clusters task.2 task.1
        request).joined task.1)).filterMap answerOf
  refine tasks.trans (List.Perm.of_eq ?_)
  rw [List.zipIdx_map, List.map_map, List.filterMap_map]
  have answers : ∀ entry ∈ clusters.zipIdx,
      answerOf ((ClusterSlices.network clusters entry.2
        (ClusterSlices.address entry.1) request).joined
          (ClusterSlices.address entry.1)) =
        some (entry.1.reply request.limit.toNat) := by
    intro target member
    rcases target with ⟨cluster, number⟩
    have found := List.mem_zipIdx_iff_getElem?.mp member
    simp only [ClusterSlices.network, found]
    rfl
  calc
    _ = clusters.zipIdx.filterMap
        (fun entry => some (entry.1.reply request.limit.toNat)) :=
      List.filterMap_congr answers
    _ = clusters.zipIdx.map
        (fun entry => entry.1.reply request.limit.toNat) := by
      rw [← List.filterMap_eq_map]
      rfl
    _ = (clusters.zipIdx.map Prod.fst).map
        (fun cluster => cluster.reply request.limit.toNat) := by
      rw [List.map_map]
      rfl
    _ = clusters.map (fun cluster => cluster.reply request.limit.toNat) := by
      rw [List.zipIdx_map_fst]

/-- Over disjoint slices a federated search shows the best hits of all, and
counts what the shards count. -/
theorem federated_topK (order : IterationOrder (SearchHit real))
    (arrival : IterationOrder (String × Nat)) (elapsedMs : UInt64)
    (clusters : List (ClusterSlices real)) (request : SearchRequest real)
    (distinct : ((clusters.flatMap ClusterSlices.held).map icao24Of).Nodup) :
    let response := federateSearch order arrival elapsedMs
      (ClusterSlices.network clusters)
      (clusters.map ClusterSlices.address) request
    response.hits =
        truncate request.limit.toNat
          (sortHits (clusters.flatMap ClusterSlices.held)) ∧
      response.totalMatched =
        ((clusters.flatMap ClusterSlices.shards).map
          (fun slice => slice.envelope.totalMatched)).sum := by
  have replies := replies_federated arrival clusters request
  intro response
  constructor
  · have groups :
        (clusters.flatMap ClusterSlices.held) =
          (clusters.map ClusterSlices.held).flatten :=
      List.flatMap_def
    rw [groups] at distinct ⊢
    apply truncate_sortHits_collected order distinct
    refine (replies.flatMap_right SearchResponse.hits).trans ?_
    rw [List.flatMap_map, List.flatMap_map]
    apply List.Perm.of_eq
    apply List.flatMap_congr
    intro cluster member
    apply hits_reply
    exact distinct.sublist
      ((List.sublist_flatten_of_mem (List.mem_map_of_mem member)).map _)
  · have totals := (replies.map SearchResponse.totalMatched).sum_eq
    refine Eq.trans totals ?_
    rw [List.map_map]
    clear replies totals distinct response
    induction clusters with
    | nil =>
        rfl
    | cons cluster rest inductionHypothesis =>
        rw [List.map_cons, List.sum_cons, inductionHypothesis,
          List.flatMap_cons, List.map_append, List.sum_append]
        congr 1
        change ((cluster.shards.map _).map SearchResponse.totalMatched).sum = _
        rw [List.map_map]
        rfl

theorem federated_topK_twoClusters :
    (federateSearch (.asStored : IterationOrder (SearchHit Int)) .backwards 0
      (ClusterSlices.network
        [⟨"http://one", plainCall .asStored 2,
            [⟨[observation "aaa" 100 1, observation "bbb" 100 5],
                reply []⟩,
              ⟨[observation "ccc" 100 4], reply []⟩]⟩,
          ⟨"http://two", plainCall .asStored 1,
            [⟨[observation "ddd" 100 3, observation "eee" 100 2],
              reply []⟩]⟩])
      ["http://one", "http://two"] ⟨"q", 2, none⟩).hits.map icao24Of =
        ["bbb", "ccc"] := by
  have best := (federated_topK .asStored .backwards 0
    [⟨"http://one", plainCall .asStored 2,
        [⟨[observation "aaa" 100 1, observation "bbb" 100 5], reply []⟩,
          ⟨[observation "ccc" 100 4], reply []⟩]⟩,
      ⟨"http://two", plainCall .asStored 1,
        [⟨[observation "ddd" 100 3, observation "eee" 100 2], reply []⟩]⟩]
    ⟨"q", 2, none⟩ (by decide +kernel)).1
  refine (congrArg (List.map icao24Of) best).trans ?_
  decide +kernel

/-! ## The shards' own answers -/

section Shards

variable {rules : TextRules} {vectors : VectorSide real}

theorem sortHits_matching (service : ShardSearchService real vectors)
    (surviving : Std.ExtTreeMap String (FlightDocument real))
    (arith : Arithmetic real) (floats : FloatRules real) (query : String)
    (filter : Option (Common.Filter real)) :
    sortHits (service.matching rules arith floats surviving query filter) =
      service.matching rules arith floats surviving query filter := by
  apply List.Pairwise.insertionSort_eq
  rw [ShardSearchService.matching, List.pairwise_map]
  apply List.Pairwise.filter
  rw [scan, truncate_zero, sortScored]
  exact pairwise_sortBy cmpScored_trans cmpScored_total _

theorem reply_eq_slice_reply (arith : Arithmetic real)
    (floats : FloatRules real) (shard : AnsweringShard rules vectors)
    (request : SearchRequest real) :
    shard.reply arith floats request =
      Slice.reply
        ⟨shard.matching arith floats request.query request.filter,
          shard.reply arith floats request⟩ request.limit.toNat := by
  rw [Slice.reply, AnsweringShard.matching, sortHits_matching]
  rfl

end Shards

end AetherEngine.Federation
