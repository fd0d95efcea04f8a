import AetherEngine.Coordinator.Fanout

/-!
# What a merge depends on

Without a limit the merge of shard responses depends only on which hits they
hold: neither the order of the responses, nor merging groups of them first, nor
the iteration order of the deduplication map shows in the result.

The progressive merge cuts to the limit after every response.  A hit outside the
limit can come back: when a fresher copy of a better hit has a lower score, the
hit that was cut off belongs to the result again but is gone.  The progressive
result equals the batch result through a whole stream exactly when no aircraft
that was cut off is reported again or climbs back above the limit.
-/

namespace AetherEngine.Coordinator

open AetherEngine.Common
open AetherEngine.Ranking

variable {real : Type}

/-! ## One merge -/

/-- The circumstances of one call of the batch merge. -/
structure MergeCall (real : Type) where
  order : IterationOrder (SearchHit real)
  omitted : List OmittedShard
  shardsQueried : Nat
  placementVersion : UInt64
  elapsedMs : UInt64

/-- All hits of some responses. -/
def hitsOf (responses : List (SearchResponse real)) : List (SearchHit real) :=
  responses.flatMap SearchResponse.hits

/-- The copies of aircraft that some responses report. -/
def copiesOf (responses : List (SearchResponse real)) :
    List (String × (Int ×ₗ real)) :=
  (hitsOf responses).map copyOf

theorem copiesOf_eq_flatten (responses : List (SearchResponse real)) :
    copiesOf responses =
      (responses.map (fun response => response.hits.map copyOf)).flatten := by
  rw [copiesOf, hitsOf, List.map_flatMap, List.flatMap_def]

/-- The freshness envelope of a merged response. -/
def envelopeOf (response : SearchResponse real) : Option (Int × Int) :=
  response.manifest.map (fun manifest =>
    (manifest.freshestObservedAt, manifest.stalestObservedAt))

/-- The shard stamps a hit with its document's observation time. -/
def Stamped (hit : SearchHit real) : Prop :=
  hit.provenance.map HitProvenance.observedAt =
    hit.document.map FlightDocument.observedAt

/-- The freshness envelope of copies; times that are not positive are
ignored. -/
def envelopeOfCopies (copies : List (String × (Int ×ₗ real))) : Int × Int :=
  let observed :=
    (copies.map (fun copy => (ofLex copy.2).1)).filter (fun time => 0 < time)
  (observed.max?.getD 0, observed.min?.getD 0)

/-- Two responses show the same copies, the same total and the same
envelope. -/
def SameResult (left right : SearchResponse real) : Prop :=
  left.hits.map copyOf = right.hits.map copyOf ∧
    left.totalMatched = right.totalMatched ∧
    envelopeOf left = envelopeOf right

private theorem observed_of_stamped {hits : List (SearchHit real)}
    (stamped : ∀ hit ∈ hits, Stamped hit) :
    (hits.filterMap
        (fun hit => hit.provenance.map HitProvenance.observedAt)).filter
          (fun time => 0 < time) =
      ((hits.map copyOf).map (fun copy => (ofLex copy.2).1)).filter
        (fun time => 0 < time) := by
  induction hits with
  | nil =>
      rfl
  | cons hit rest inductionHypothesis =>
      have restEqual := inductionHypothesis
        (fun other member => stamped other (by simp [member]))
      have stamp := stamped hit (by simp)
      rw [List.filterMap_cons, stamp]
      cases found : hit.document with
      | none =>
          simpa [copyOf, observedAtOf, found] using restEqual
      | some document =>
          rw [List.map_map] at restEqual
          simp [copyOf, observedAtOf, found, List.filter_cons, restEqual]

variable [LinearOrder real]

namespace MergeCall

/-- The batch merge under the circumstances of a call. -/
def merge (call : MergeCall real) (responses : List (SearchResponse real))
    (limit : Nat) : SearchResponse real :=
  mergeSearchResponses call.order ⟨responses, call.omitted⟩ limit
    call.shardsQueried call.placementVersion call.elapsedMs

theorem copies_merge (call : MergeCall real)
    (responses : List (SearchResponse real)) (limit : Nat) :
    (call.merge responses limit).hits.map copyOf =
      truncate limit (ranking byScore (copiesOf responses)) := by
  rw [copiesOf, ← map_copyOf_sortHits_dedup call.order (hitsOf responses),
    ← map_truncate]
  rfl

private theorem deduped_merge (call : MergeCall real)
    (responses : List (SearchResponse real)) (limit : Nat) :
    (call.merge responses limit).manifest.map QueryManifest.deduped =
      some ((hitsOf responses).length -
        (ranking byScore (copiesOf responses)).length) := by
  rw [copiesOf, ← length_dedupByAircraft call.order (hitsOf responses)]
  rfl

theorem mem_hits_merge {call : MergeCall real}
    {responses : List (SearchResponse real)} {limit : Nat}
    {hit : SearchHit real}
    (member : hit ∈ (call.merge responses limit).hits) :
    hit ∈ hitsOf responses := by
  have kept := mem_of_mem_truncate member
  rw [sortHits, (sortBy_perm _ _).mem_iff] at kept
  exact mem_dedupByAircraft kept

private theorem envelope_merge (call : MergeCall real)
    {responses : List (SearchResponse real)} {limit : Nat}
    (stamped : ∀ hit ∈ hitsOf responses, Stamped hit) :
    envelopeOf (call.merge responses limit) =
      some (envelopeOfCopies
        (truncate limit (ranking byScore (copiesOf responses)))) := by
  have observed :
      ((call.merge responses limit).hits.filterMap
          (fun hit => hit.provenance.map HitProvenance.observedAt)).filter
            (fun time => 0 < time) = _ :=
    observed_of_stamped
      (fun hit member => stamped hit (mem_hits_merge member))
  rw [← copies_merge call, envelopeOfCopies, ← observed]
  rfl

/-- Without a limit the result is a function of the copies and the totals. -/
theorem sameResult_of_ranking_eq {call call' : MergeCall real}
    {responses responses' : List (SearchResponse real)}
    (stamped : ∀ hit ∈ hitsOf responses, Stamped hit)
    (stamped' : ∀ hit ∈ hitsOf responses', Stamped hit)
    (sameRanking : ranking byScore (copiesOf responses) =
      ranking byScore (copiesOf responses'))
    (sameTotal : (responses.map SearchResponse.totalMatched).sum =
      (responses'.map SearchResponse.totalMatched).sum) :
    SameResult (call.merge responses 0) (call'.merge responses' 0) := by
  refine ⟨?_, sameTotal, ?_⟩
  · rw [copies_merge, copies_merge, sameRanking]
  · rw [envelope_merge call stamped, envelope_merge call' stamped',
      sameRanking]

end MergeCall

/-! ## Order and grouping -/

omit [LinearOrder real] in
private theorem hitsOf_perm {responses responses' : List (SearchResponse real)}
    (permuted : responses.Perm responses') :
    (hitsOf responses).Perm (hitsOf responses') :=
  permuted.flatMap_right _

/-- The responses that come from merging groups first. -/
def mergedGroups
    (groups : List (MergeCall real × List (SearchResponse real))) :
    List (SearchResponse real) :=
  groups.map (fun group => group.1.merge group.2 0)

private theorem copiesOf_mergedGroups
    (groups : List (MergeCall real × List (SearchResponse real))) :
    copiesOf (mergedGroups groups) =
      (groups.map
        (fun group => ranking byScore (copiesOf group.2))).flatten := by
  rw [copiesOf_eq_flatten, mergedGroups, List.map_map]
  congr 1
  apply List.map_congr_left
  intro group _
  have shown := MergeCall.copies_merge group.1 group.2 0
  rwa [truncate_zero] at shown

omit [LinearOrder real] in
private theorem copiesOf_flatMap {γ : Type} (f : γ → List (SearchResponse real))
    (groups : List γ) :
    copiesOf (groups.flatMap f) =
      (groups.map (fun group => copiesOf (f group))).flatten := by
  rw [copiesOf, hitsOf, List.flatMap_assoc, List.map_flatMap,
    List.flatMap_def]
  rfl

/-- Merging groups first does not change the ranking. -/
theorem ranking_mergedGroups
    (groups : List (MergeCall real × List (SearchResponse real))) :
    ranking byScore (copiesOf (mergedGroups groups)) =
      ranking byScore (copiesOf (groups.flatMap Prod.snd)) := by
  rw [copiesOf_mergedGroups, copiesOf_flatMap]
  apply ranking_congr
  apply isBest_flatten_iff
  rw [List.forall₂_map_left_iff, List.forall₂_map_right_iff,
    List.forall₂_same]
  intro group _
  exact condenses_ranking byScore (copiesOf group.2)

private theorem totalMatched_mergedGroups
    (groups : List (MergeCall real × List (SearchResponse real))) :
    ((mergedGroups groups).map SearchResponse.totalMatched).sum =
      ((groups.flatMap Prod.snd).map SearchResponse.totalMatched).sum := by
  induction groups with
  | nil =>
      rfl
  | cons group rest inductionHypothesis =>
      rw [List.flatMap_cons, List.map_append, List.sum_append,
        ← inductionHypothesis]
      rfl

private theorem mem_hitsOf_mergedGroups
    {groups : List (MergeCall real × List (SearchResponse real))}
    {hit : SearchHit real} (member : hit ∈ hitsOf (mergedGroups groups)) :
    hit ∈ hitsOf (groups.flatMap Prod.snd) := by
  rw [hitsOf, List.mem_flatMap] at member
  obtain ⟨response, responseMember, hitMember⟩ := member
  obtain ⟨group, groupMember, rfl⟩ := List.mem_map.mp responseMember
  have original := MergeCall.mem_hits_merge hitMember
  rw [hitsOf, List.mem_flatMap] at original ⊢
  obtain ⟨source, sourceMember, sourceHit⟩ := original
  exact ⟨source, List.mem_flatMap.mpr ⟨group, groupMember, sourceMember⟩,
    sourceHit⟩

/-- Every aircraft of the input is shown once, by a hit whose observation time
and score are maximal among its copies. -/
theorem count_hits_merge (call : MergeCall real)
    (responses : List (SearchResponse real)) (aircraft : String) :
    ((call.merge responses 0).hits.map icao24Of).count aircraft =
      if aircraft ∈ (hitsOf responses).map icao24Of then 1 else 0 := by
  have shown := MergeCall.copies_merge call responses 0
  rw [truncate_zero] at shown
  have condenses := condenses_ranking byScore (copiesOf responses)
  rw [← shown, copiesOf] at condenses
  have once := condenses.once
  rw [List.map_map] at once
  by_cases reported : aircraft ∈ (hitsOf responses).map icao24Of
  · rw [if_pos reported]
    apply List.count_eq_one_of_mem once
    obtain ⟨hit, member, rfl⟩ := List.mem_map.mp reported
    obtain ⟨keeper, keeperMember, sameKey, -⟩ :=
      condenses.covers (List.mem_map_of_mem member)
    obtain ⟨shownHit, shownMember, rfl⟩ := List.mem_map.mp keeperMember
    exact List.mem_map.mpr ⟨shownHit, shownMember, sameKey⟩
  · rw [if_neg reported, List.count_eq_zero]
    intro found
    obtain ⟨hit, member, rfl⟩ := List.mem_map.mp found
    exact reported (List.mem_map_of_mem (MergeCall.mem_hits_merge member))

private theorem copy_le_of_mem_merge {call : MergeCall real}
    {responses : List (SearchResponse real)} {hit other : SearchHit real}
    (member : hit ∈ (call.merge responses 0).hits)
    (otherMember : other ∈ hitsOf responses)
    (same : icao24Of other = icao24Of hit) :
    (copyOf other).2 ≤ (copyOf hit).2 := by
  have shown := MergeCall.copies_merge call responses 0
  rw [truncate_zero] at shown
  have ranked := List.mem_map_of_mem (f := copyOf) member
  rw [shown, mem_ranking] at ranked
  exact ranked.2 (copyOf other) (List.mem_map_of_mem otherMember) same

/-- The merge without a limit depends on neither the order nor the grouping of
the responses. -/
theorem merge_order_grouping_irrelevant
    (call : MergeCall real) (responses : List (SearchResponse real))
    (stamped : ∀ hit ∈ hitsOf responses, Stamped hit) :
    (∀ (other : MergeCall real) (permuted : List (SearchResponse real)),
      permuted.Perm responses →
        SameResult (other.merge permuted 0) (call.merge responses 0)) ∧
    (∀ (other : MergeCall real)
        (groups : List (MergeCall real × List (SearchResponse real))),
      (groups.flatMap Prod.snd).Perm responses →
        SameResult (other.merge (mergedGroups groups) 0)
          (call.merge responses 0)) ∧
    (∀ aircraft,
      ((call.merge responses 0).hits.map icao24Of).count aircraft =
        if aircraft ∈ (hitsOf responses).map icao24Of then 1 else 0) ∧
    (∀ hit ∈ (call.merge responses 0).hits,
      hit ∈ hitsOf responses ∧
        ∀ other ∈ hitsOf responses, icao24Of other = icao24Of hit →
          (copyOf other).2 ≤ (copyOf hit).2) ∧
    (call.merge responses 0).manifest.map QueryManifest.deduped =
      some ((hitsOf responses).length -
        ((hitsOf responses).map icao24Of).toFinset.card) := by
  have unordered :
      ∀ permuted : List (SearchResponse real), permuted.Perm responses →
        (∀ hit ∈ hitsOf permuted, Stamped hit) ∧
          ranking byScore (copiesOf permuted) =
            ranking byScore (copiesOf responses) ∧
          (permuted.map SearchResponse.totalMatched).sum =
            (responses.map SearchResponse.totalMatched).sum := by
    intro permuted perm
    have sameHits := hitsOf_perm perm
    refine ⟨?_, ?_, (perm.map _).sum_eq⟩
    · intro hit member
      exact stamped hit (sameHits.mem_iff.mp member)
    · apply ranking_congr_of_mem_iff
      intro copy
      exact (sameHits.map copyOf).mem_iff
  refine ⟨?_, ?_, ?_, ?_, ?_⟩
  · intro other permuted perm
    obtain ⟨stamped', sameRanking, sameTotal⟩ := unordered permuted perm
    exact MergeCall.sameResult_of_ranking_eq stamped' stamped sameRanking
      sameTotal
  · intro other groups perm
    obtain ⟨stamped', sameRanking, sameTotal⟩ := unordered _ perm
    apply MergeCall.sameResult_of_ranking_eq _ stamped
    · exact (ranking_mergedGroups groups).trans sameRanking
    · exact (totalMatched_mergedGroups groups).trans sameTotal
    · intro hit member
      exact stamped' hit (mem_hitsOf_mergedGroups member)
  · exact count_hits_merge call responses
  · intro hit member
    exact ⟨MergeCall.mem_hits_merge member,
      fun other otherMember same =>
        copy_le_of_mem_merge member otherMember same⟩
  · rw [MergeCall.deduped_merge, length_ranking, copiesOf, List.map_map]
    rfl

/-- A stamped hit of an aircraft. -/
def observation (aircraft : String) (time score : Int) : SearchHit Int where
  document := some { (default : FlightDocument Int) with
    icao24 := aircraft
    observedAt := time }
  score := score
  provenance := some
    { sourceGroup := "shard-0"
      observedAt := time
      index := .keyword
      score := score
      owningVshard := -1 }

/-- A shard's reply with the given hits. -/
def reply (hits : List (SearchHit Int)) : SearchResponse Int where
  hits := hits
  totalMatched := hits.length.toUInt64
  shardId := "shard-0"
  shardsQueried := 0
  shardsAnswered := 0
  manifest := none

/-- A call that met every shard. -/
def plainCall (order : IterationOrder (SearchHit Int)) (shards : Nat) :
    MergeCall Int where
  order := order
  omitted := []
  shardsQueried := shards
  placementVersion := 0
  elapsedMs := 0

/-- Two clusters report one aircraft in different states; merging each cluster
first shows what one merge of all shards shows. -/
theorem merge_order_grouping_irrelevant_twoClusters :
    SameResult
      ((plainCall .backwards 2).merge
        (mergedGroups
          [(plainCall .asStored 1, [reply [observation "bbb" 200 1]]),
            (plainCall .backwards 2,
              [reply [observation "aaa" 100 3],
                reply [observation "bbb" 100 9]])]) 0)
      ((plainCall .asStored 3).merge
        [reply [observation "aaa" 100 3], reply [observation "bbb" 100 9],
          reply [observation "bbb" 200 1]] 0) := by
  refine (merge_order_grouping_irrelevant (plainCall .asStored 3)
    [reply [observation "aaa" 100 3], reply [observation "bbb" 100 9],
      reply [observation "bbb" 200 1]] ?_).2.1 (plainCall .backwards 2) _ ?_
  · intro hit member
    simp only [hitsOf, reply, List.flatMap_cons, List.flatMap_nil,
      List.cons_append, List.nil_append, List.mem_cons, List.not_mem_nil,
      or_false] at member
    rcases member with rfl | rfl | rfl <;> rfl
  · exact (List.perm_append_singleton (reply [observation "bbb" 200 1])
      [reply [observation "aaa" 100 3],
        reply [observation "bbb" 100 9]]).symm

/-! ## Progress

A stream of responses, each with the iteration order of the deduplication it
causes. -/

/-- The progressive merge after some arrivals. -/
def progress (limit shardsQueried : Nat) (placementVersion : UInt64)
    (arrivals :
      List (IterationOrder (SearchHit real) × SearchResponse real)) :
    ProgressiveMerge real :=
  arrivals.foldl (fun merge arrival => merge.add arrival.1 arrival.2)
    (ProgressiveMerge.new shardsQueried limit placementVersion)

omit [LinearOrder real] in
/-- What a progressive merge shows and has counted as duplicates. -/
def tallyOf (merge : ProgressiveMerge real) : Tally String (Int ×ₗ real) where
  shown := merge.hits.map copyOf
  duplicates := merge.deduped

private theorem tallyOf_add (merge : ProgressiveMerge real)
    (order : IterationOrder (SearchHit real))
    (response : SearchResponse real) :
    tallyOf (merge.add order response) =
      absorb byScore merge.limit (tallyOf merge)
        (response.hits.map copyOf) := by
  have shown := map_copyOf_sortHits_dedup order (merge.hits ++ response.hits)
  have distinct := length_dedupByAircraft order (merge.hits ++ response.hits)
  rw [List.map_append] at shown distinct
  ext1
  · simp only [tallyOf, absorb, ProgressiveMerge.add, map_truncate, shown]
  · simp only [tallyOf, absorb, ProgressiveMerge.add, distinct,
      List.length_append, List.length_map]

section Arrivals

variable (limit shardsQueried : Nat) (placementVersion : UInt64)
variable (arrivals :
  List (IterationOrder (SearchHit real) × SearchResponse real))

theorem progress_append
    (arrival : IterationOrder (SearchHit real) × SearchResponse real) :
    progress limit shardsQueried placementVersion (arrivals ++ [arrival]) =
      (progress limit shardsQueried placementVersion arrivals).add
        arrival.1 arrival.2 := by
  simp [progress]

private theorem limit_progress :
    (progress limit shardsQueried placementVersion arrivals).limit =
      limit := by
  induction arrivals using List.reverseRecOn with
  | nil =>
      rfl
  | append_singleton earlier arrival inductionHypothesis =>
      rw [progress_append]
      exact inductionHypothesis

/-- The progressive merge is the stream of the copies that arrive. -/
theorem tallyOf_progress :
    tallyOf (progress limit shardsQueried placementVersion arrivals) =
      stream byScore limit
        (arrivals.map (fun arrival => arrival.2.hits.map copyOf)) := by
  induction arrivals using List.reverseRecOn with
  | nil =>
      rfl
  | append_singleton earlier arrival inductionHypothesis =>
      rw [progress_append, tallyOf_add, limit_progress, inductionHypothesis,
        List.map_append, List.map_singleton, stream_append]

private theorem totalMatched_progress :
    (progress limit shardsQueried placementVersion arrivals).totalMatched =
      ((arrivals.map Prod.snd).map SearchResponse.totalMatched).sum := by
  induction arrivals using List.reverseRecOn with
  | nil =>
      rfl
  | append_singleton earlier arrival inductionHypothesis =>
      rw [progress_append, List.map_append, List.map_append, List.sum_append,
        ← inductionHypothesis]
      simp [ProgressiveMerge.add]

private theorem shardsAnswered_progress :
    (progress limit shardsQueried placementVersion arrivals).shardsAnswered =
      arrivals.length := by
  induction arrivals using List.reverseRecOn with
  | nil =>
      rfl
  | append_singleton earlier arrival inductionHypothesis =>
      rw [progress_append, List.length_append, ← inductionHypothesis]
      rfl

end Arrivals

/-- A progressive result and a batch result agree: on the hits, the total and
the coverage at every update, and on the duplicates once the manifest is
attached. -/
def Agrees (merge : ProgressiveMerge real) (response : SearchResponse real) :
    Prop :=
  ∀ complete elapsedMs,
    (merge.snapshot complete elapsedMs).hits.map copyOf =
        response.hits.map copyOf ∧
      (merge.snapshot complete elapsedMs).totalMatched =
        response.totalMatched ∧
      (merge.snapshot complete elapsedMs).shardsAnswered =
        response.shardsAnswered ∧
      (complete = true →
        (merge.snapshot complete elapsedMs).manifest.map
            QueryManifest.deduped =
          response.manifest.map QueryManifest.deduped)

/-- At every arrival the aircraft that the limit has cut off stay out: an
aircraft whose freshest copy has `limit` or more aircraft ahead of it is not
reported by the next response, and still has as many ahead of it afterwards. -/
def CutOffStaysOut (limit : Nat) (responses : List (SearchResponse real)) :
    Prop :=
  ∀ earlier next later, responses = earlier ++ next :: later →
    StaysOut byScore limit (copiesOf earlier) (next.hits.map copyOf)

theorem agrees_iff (limit shardsQueried : Nat) (placementVersion : UInt64)
    (arrivals :
      List (IterationOrder (SearchHit real) × SearchResponse real))
    (call : MergeCall real) :
    Agrees (progress limit shardsQueried placementVersion arrivals)
        (call.merge (arrivals.map Prod.snd) limit) ↔
      stream byScore limit
          (arrivals.map (fun arrival => arrival.2.hits.map copyOf)) =
        batch byScore limit (copiesOf (arrivals.map Prod.snd)) := by
  have shown := call.copies_merge (arrivals.map Prod.snd) limit
  have deduped := call.deduped_merge (arrivals.map Prod.snd) limit
  have total := totalMatched_progress limit shardsQueried placementVersion
    arrivals
  have answered := shardsAnswered_progress limit shardsQueried
    placementVersion arrivals
  rw [← tallyOf_progress limit shardsQueried placementVersion arrivals]
  generalize progress limit shardsQueried placementVersion arrivals = merge
    at total answered
  constructor
  · intro agrees
    obtain ⟨sameShown, -, -, sameDeduped⟩ := agrees true 0
    rw [shown] at sameShown
    have duplicates := sameDeduped rfl
    rw [deduped] at duplicates
    ext1
    · exact sameShown
    · simpa [ProgressiveMerge.snapshot, buildManifest, tallyOf, batch,
        copiesOf] using duplicates
  · intro same complete elapsedMs
    have sameShown := congrArg Tally.shown same
    have sameDuplicates := congrArg Tally.duplicates same
    refine ⟨?_, total, ?_, ?_⟩
    · rw [shown]
      exact sameShown
    · rw [ProgressiveMerge.snapshot, answered]
      exact (List.length_map _).symm
    · intro equality
      subst equality
      rw [deduped]
      simpa [ProgressiveMerge.snapshot, buildManifest, tallyOf, batch,
        copiesOf] using sameDuplicates

/-- Through a whole stream the progressive merge shows what the batch merge of
the same responses shows, exactly when the aircraft cut off stay out. -/
theorem progress_agrees_iff
    (limit shardsQueried : Nat) (placementVersion : UInt64)
    (arrivals :
      List (IterationOrder (SearchHit real) × SearchResponse real))
    (call : List (SearchResponse real) → MergeCall real) :
    (∀ earlier later, arrivals = earlier ++ later →
        Agrees (progress limit shardsQueried placementVersion earlier)
          ((call (earlier.map Prod.snd)).merge
            (earlier.map Prod.snd) limit)) ↔
      CutOffStaysOut limit (arrivals.map Prod.snd) := by
  simp only [agrees_iff, copiesOf_eq_flatten, List.map_map]
  rw [CutOffStaysOut]
  simp only [copiesOf_eq_flatten]
  have streamed := stream_eq_batch_iff byScore limit
    (arrivals.map (fun arrival => arrival.2.hits.map copyOf))
  constructor
  · intro keepsUp earlier next later split
    obtain ⟨first, rest, rfl, rfl, restIs⟩ := List.map_eq_append_iff.mp split
    obtain ⟨arrival, last, rfl, rfl, rfl⟩ := List.map_eq_cons_iff.mp restIs
    rw [List.map_map]
    apply streamed.mp _ _ _ (last.map (fun arrival => arrival.2.hits.map copyOf))
    · simp [Function.comp_def]
    · intro taken untaken takenSplit
      obtain ⟨before, after, beforeSplit, rfl, rfl⟩ :=
        List.map_eq_append_iff.mp takenSplit
      exact keepsUp before after beforeSplit
  · intro staysOut earlier later split
    apply streamed.mpr _ _ (later.map (fun arrival => arrival.2.hits.map copyOf))
    · simp [split]
    · intro taken next untaken takenSplit
      obtain ⟨before, rest, beforeSplit, rfl, restIs⟩ :=
        List.map_eq_append_iff.mp takenSplit
      obtain ⟨arrival, after, rfl, rfl, rfl⟩ := List.map_eq_cons_iff.mp restIs
      have outside := staysOut (before.map Prod.snd) arrival.2
        (after.map Prod.snd) (by simp [beforeSplit])
      rwa [List.map_map] at outside

/-- The reports that make a cut-off aircraft come back: `bbb` is cut off by an
old copy of `aaa`, whose fresh copy scores below it. -/
def returningReports :
    List (IterationOrder (SearchHit Int) × SearchResponse Int) :=
  [(.asStored, reply [observation "aaa" 100 9]),
    (.asStored, reply [observation "bbb" 100 5]),
    (.asStored, reply [observation "aaa" 200 1])]

theorem returningReports_disagree :
    ¬ Agrees (progress 1 3 0 returningReports)
      ((plainCall .asStored 3).merge (returningReports.map Prod.snd) 1) := by
  intro agrees
  have shown := (agrees true 0).1
  revert shown
  decide +kernel

end AetherEngine.Coordinator
