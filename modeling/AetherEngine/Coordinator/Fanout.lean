import AetherEngine.Common.Messages
import AetherEngine.Foundations.Ranking
import Mathlib.Algebra.BigOperators.Group.List.Basic
import Mathlib.Data.Prod.Lex
import Mathlib.Data.String.Basic
import Mathlib.Data.UInt

/-!
# Merging shard responses

The coordinator asks every shard and merges the answers into one ranking: the
freshest copy of every aircraft, by score, cut to a limit.  The batch merge
waits for all shards; the progressive merge folds in one shard at a time and
cuts after each.

Scores are compared as in a linear order: a score is never "not a number".
-/

namespace AetherEngine.Coordinator

open AetherEngine.Common
open AetherEngine.Ranking

variable {real : Type}

/-! ## Answers and manifests -/

def icao24Of (hit : SearchHit real) : String :=
  (hit.document.map FlightDocument.icao24).getD ""

def observedAtOf (hit : SearchHit real) : Int :=
  (hit.document.map FlightDocument.observedAt).getD 0

/-- The manifest of a query; the freshness envelope spans the hits returned. -/
def buildManifest (hits : List (SearchHit real))
    (shardsQueried shardsAnswered : Nat) (omitted : List OmittedShard)
    (deduped : Nat) (placementVersion elapsedMs : UInt64) : QueryManifest :=
  let observed := (hits.filterMap
    (fun hit => hit.provenance.map HitProvenance.observedAt)).filter
      (fun time => 0 < time)
  { shardsQueried := shardsQueried
    shardsAnswered := shardsAnswered
    omitted := omitted
    deduped := deduped
    freshestObservedAt := observed.max?.getD 0
    stalestObservedAt := observed.min?.getD 0
    elapsedMs := elapsedMs
    placementVersion := placementVersion }

/-- The shards that answered a query, and those that did not. -/
structure Fanout (real : Type) where
  responses : List (SearchResponse real)
  omitted : List OmittedShard

/-- The best hits so far and the counters of a streaming query. -/
structure ProgressiveMerge (real : Type) where
  limit : Nat
  hits : List (SearchHit real)
  totalMatched : UInt64
  shardsAnswered : Nat
  shardsQueried : Nat
  omitted : List OmittedShard
  deduped : Nat
  placementVersion : UInt64

namespace ProgressiveMerge

def new (shardsQueried limit : Nat) (placementVersion : UInt64) :
    ProgressiveMerge real where
  limit := limit
  hits := []
  totalMatched := 0
  shardsAnswered := 0
  shardsQueried := shardsQueried
  omitted := []
  deduped := 0
  placementVersion := placementVersion

/-- Record a shard that did not answer. -/
def omitShard (merge : ProgressiveMerge real) (omitted : OmittedShard) :
    ProgressiveMerge real :=
  { merge with omitted := merge.omitted ++ [omitted] }

/-- The current result; the manifest is attached to the final update only. -/
def snapshot (merge : ProgressiveMerge real) (complete : Bool)
    (elapsedMs : UInt64) : SearchUpdate real where
  hits := merge.hits
  totalMatched := merge.totalMatched
  shardsAnswered := merge.shardsAnswered
  shardsQueried := merge.shardsQueried
  complete := complete
  manifest :=
    if complete then
      some (buildManifest merge.hits merge.shardsQueried merge.shardsAnswered
        merge.omitted merge.deduped merge.placementVersion elapsedMs)
    else
      none

end ProgressiveMerge

/-! ## Ranking and deduplication -/

variable [LinearOrder real]

/-- Score descending, ties broken by `icao24`. -/
def cmpHits (first second : SearchHit real) : Ordering :=
  (compare second.score first.score).then
    (compare (icao24Of first) (icao24Of second))

/-- The freshest observation wins; ties go to the higher score. -/
def supersedes (challenger holder : SearchHit real) : Bool :=
  decide (observedAtOf holder < observedAtOf challenger) ||
    (decide (observedAtOf challenger = observedAtOf holder) &&
      decide (holder.score < challenger.score))

/-- One hit enters the map of the best hits. -/
def keepBest (best : Std.ExtTreeMap String (SearchHit real))
    (hit : SearchHit real) : Std.ExtTreeMap String (SearchHit real) :=
  match best[icao24Of hit]? with
  | some existing =>
      if supersedes hit existing then best.insert (icao24Of hit) hit else best
  | none => best.insert (icao24Of hit) hit

/-- One hit for each aircraft, in the order the hash map yields them. -/
def dedupByAircraft (order : IterationOrder (SearchHit real))
    (hits : List (SearchHit real)) : List (SearchHit real) :=
  order.arrange ((hits.foldl keepBest ∅).toList.map Prod.snd)

def sortHits (hits : List (SearchHit real)) : List (SearchHit real) :=
  sortBy (fun first second => (cmpHits first second).isLE) hits

theorem cmpHits_antisymm {hits : List (SearchHit real)}
    (distinct : (hits.map icao24Of).Nodup) :
    ∀ first ∈ hits, ∀ second ∈ hits,
      (cmpHits first second).isLE = true →
      (cmpHits second first).isLE = true → first = second := by
  intro first member second secondMember forth back
  have same := cmpScoreKey_antisymm (first.score, icao24Of first)
    (second.score, icao24Of second) forth back
  exact List.inj_on_of_nodup_map distinct member secondMember
    (congrArg Prod.snd same)

theorem cmpHits_trans (first second third : SearchHit real) :
    (cmpHits first second).isLE = true → (cmpHits second third).isLE = true →
      (cmpHits first third).isLE = true :=
  cmpScoreKey_trans (first.score, icao24Of first)
    (second.score, icao24Of second) (third.score, icao24Of third)

theorem cmpHits_total (first second : SearchHit real) :
    ((cmpHits first second).isLE || (cmpHits second first).isLE) = true :=
  cmpScoreKey_total (first.score, icao24Of first)
    (second.score, icao24Of second)

/-! ## The two merges -/

def mergeSearchResponses (order : IterationOrder (SearchHit real))
    (fanout : Fanout real) (limit shardsQueried : Nat)
    (placementVersion elapsedMs : UInt64) : SearchResponse real :=
  let shardsAnswered := fanout.responses.length
  let totalMatched := (fanout.responses.map SearchResponse.totalMatched).sum
  let collected := fanout.responses.flatMap SearchResponse.hits
  let distinct := dedupByAircraft order collected
  let deduped := collected.length - distinct.length
  let hits := truncate limit (sortHits distinct)
  { hits := hits
    totalMatched := totalMatched
    shardId := "coordinator"
    shardsQueried := shardsQueried
    shardsAnswered := shardsAnswered
    manifest := some (buildManifest hits shardsQueried shardsAnswered
      fanout.omitted deduped placementVersion elapsedMs) }

/-- Fold one shard's response into the running result. -/
def ProgressiveMerge.add (merge : ProgressiveMerge real)
    (order : IterationOrder (SearchHit real))
    (response : SearchResponse real) : ProgressiveMerge real :=
  let collected := merge.hits ++ response.hits
  let distinct := dedupByAircraft order collected
  { merge with
    shardsAnswered := merge.shardsAnswered + 1
    totalMatched := merge.totalMatched + response.totalMatched
    deduped := merge.deduped + (collected.length - distinct.length)
    hits := truncate merge.limit (sortHits distinct) }

/-! ## Copies of an aircraft

What the merges compare of a hit: the aircraft, and the grade of this copy of
it, observation time before score. -/

omit [LinearOrder real] in
/-- The aircraft, observation time and score of a hit. -/
def copyOf (hit : SearchHit real) : String × (Int ×ₗ real) :=
  (icao24Of hit, toLex (observedAtOf hit, hit.score))

/-- The order hits are shown in, as far as their copies tell. -/
def cmpCopies (first second : String × (Int ×ₗ real)) : Ordering :=
  (compare (ofLex second.2).2 (ofLex first.2).2).then
    (compare first.1 second.1)

/-- Hits are shown by score, then by aircraft. -/
def byScore : Display String (Int ×ₗ real) where
  le first second := (cmpCopies first second).isLE
  trans first second third :=
    cmpScoreKey_trans ((ofLex first.2).2, first.1)
      ((ofLex second.2).2, second.1) ((ofLex third.2).2, third.1)
  total first second :=
    cmpScoreKey_total ((ofLex first.2).2, first.1)
      ((ofLex second.2).2, second.1)
  separates first second forth back := by
    have same := cmpScoreKey_antisymm ((ofLex first.2).2, first.1)
      ((ofLex second.2).2, second.1) forth back
    exact congrArg Prod.snd same

theorem supersedes_iff (challenger holder : SearchHit real) :
    supersedes challenger holder = true ↔
      (copyOf holder).2 < (copyOf challenger).2 := by
  rw [supersedes, Bool.or_eq_true, Bool.and_eq_true, decide_eq_true_eq,
    decide_eq_true_eq, decide_eq_true_eq, copyOf, copyOf,
    Prod.Lex.toLex_lt_toLex, eq_comm]

/-! ## What deduplication keeps -/

/-- The map holds, for every aircraft seen, one of its best copies. -/
structure Collected (best : Std.ExtTreeMap String (SearchHit real))
    (seen : List (SearchHit real)) : Prop where
  held : ∀ {aircraft hit}, best[aircraft]? = some hit →
    hit ∈ seen ∧ icao24Of hit = aircraft ∧
      ∀ other ∈ seen, icao24Of other = aircraft →
        (copyOf other).2 ≤ (copyOf hit).2
  known : ∀ hit ∈ seen, ∃ holder, best[icao24Of hit]? = some holder

private theorem collected_empty :
    Collected (∅ : Std.ExtTreeMap String (SearchHit real)) [] where
  held found := by
    simp at found
  known hit member := by
    simp at member

theorem Collected.insert {best : Std.ExtTreeMap String (SearchHit real)}
    {seen : List (SearchHit real)} {hit : SearchHit real}
    (collected : Collected best seen)
    (highest : ∀ other ∈ seen, icao24Of other = icao24Of hit →
      (copyOf other).2 ≤ (copyOf hit).2) :
    Collected (best.insert (icao24Of hit) hit) (seen ++ [hit]) where
  held := by
    intro aircraft holder found
    simp only [Std.ExtTreeMap.getElem?_insert,
      Std.LawfulEqCmp.compare_eq_iff_eq] at found
    by_cases same : icao24Of hit = aircraft
    · rw [if_pos same, Option.some.injEq] at found
      subst found
      refine ⟨by simp, same, ?_⟩
      intro other member otherSame
      rcases List.mem_append.mp member with old | new
      · exact highest other old (otherSame.trans same.symm)
      · rw [List.mem_singleton.mp new]
    · rw [if_neg same] at found
      obtain ⟨member, holderIs, holderBest⟩ := collected.held found
      refine ⟨by simp [member], holderIs, ?_⟩
      intro other otherMember otherSame
      rcases List.mem_append.mp otherMember with old | new
      · exact holderBest other old otherSame
      · rw [List.mem_singleton.mp new] at otherSame
        exact absurd otherSame same
  known := by
    intro other member
    simp only [Std.ExtTreeMap.getElem?_insert,
      Std.LawfulEqCmp.compare_eq_iff_eq]
    by_cases same : icao24Of hit = icao24Of other
    · exact ⟨hit, if_pos same⟩
    · rcases List.mem_append.mp member with old | new
      · rw [if_neg same]
        exact collected.known other old
      · rw [List.mem_singleton.mp new] at same
        exact absurd rfl same

theorem Collected.skip {best : Std.ExtTreeMap String (SearchHit real)}
    {seen : List (SearchHit real)} {hit existing : SearchHit real}
    (collected : Collected best seen)
    (found : best[icao24Of hit]? = some existing)
    (notBetter : (copyOf hit).2 ≤ (copyOf existing).2) :
    Collected best (seen ++ [hit]) where
  held := by
    intro aircraft holder holderFound
    obtain ⟨member, holderIs, holderBest⟩ := collected.held holderFound
    refine ⟨by simp [member], holderIs, ?_⟩
    intro other otherMember otherSame
    rcases List.mem_append.mp otherMember with old | new
    · exact holderBest other old otherSame
    · rw [List.mem_singleton.mp new] at otherSame ⊢
      rw [otherSame, holderFound, Option.some.injEq] at found
      rw [found]
      exact notBetter
  known := by
    intro other member
    rcases List.mem_append.mp member with old | new
    · exact collected.known other old
    · rw [List.mem_singleton.mp new]
      exact ⟨existing, found⟩

private theorem collected_keepBest
    {best : Std.ExtTreeMap String (SearchHit real)}
    {seen : List (SearchHit real)} (collected : Collected best seen)
    (hit : SearchHit real) :
    Collected (keepBest best hit) (seen ++ [hit]) := by
  cases found : best[icao24Of hit]? with
  | none =>
      simp only [keepBest, found]
      apply collected.insert
      intro other member same
      obtain ⟨holder, holderFound⟩ := collected.known other member
      rw [same, found] at holderFound
      contradiction
  | some existing =>
      obtain ⟨-, -, existingBest⟩ := collected.held found
      simp only [keepBest, found]
      by_cases better : supersedes hit existing = true
      · rw [if_pos better]
        rw [supersedes_iff] at better
        apply collected.insert
        intro other member same
        exact (existingBest other member same).trans better.le
      · rw [if_neg better]
        rw [supersedes_iff, not_lt] at better
        exact collected.skip found better

theorem collected_foldl (hits : List (SearchHit real)) :
    Collected (hits.foldl keepBest ∅) hits := by
  induction hits using List.reverseRecOn with
  | nil =>
      exact collected_empty
  | append_singleton seen hit inductionHypothesis =>
      rw [List.foldl_append]
      exact collected_keepBest inductionHypothesis hit

theorem mem_dedupByAircraft {order : IterationOrder (SearchHit real)}
    {hits : List (SearchHit real)} {hit : SearchHit real}
    (kept : hit ∈ dedupByAircraft order hits) : hit ∈ hits := by
  rw [dedupByAircraft, IterationOrder.mem_arrange, List.mem_map] at kept
  obtain ⟨⟨aircraft, holder⟩, member, rfl⟩ := kept
  rw [Std.ExtTreeMap.mem_toList_iff_getElem?_eq_some] at member
  exact ((collected_foldl hits).held member).1

/-- Deduplication keeps the best copy of every aircraft, once. -/
theorem condenses_dedupByAircraft (order : IterationOrder (SearchHit real))
    (hits : List (SearchHit real)) :
    Condenses ((dedupByAircraft order hits).map copyOf)
      (hits.map copyOf) := by
  have collected := collected_foldl hits
  generalize bestIs : hits.foldl keepBest ∅ = best at collected
  have kept :
      ∀ hit, hit ∈ dedupByAircraft order hits ↔
        best[icao24Of hit]? = some hit := by
    intro hit
    rw [dedupByAircraft, bestIs, IterationOrder.mem_arrange, List.mem_map]
    constructor
    · intro membership
      rcases membership with ⟨⟨aircraft, holder⟩, member, rfl⟩
      rw [Std.ExtTreeMap.mem_toList_iff_getElem?_eq_some] at member
      rw [(collected.held member).2.1]
      exact member
    · intro found
      exact ⟨(icao24Of hit, hit),
        Std.ExtTreeMap.mem_toList_iff_getElem?_eq_some.mpr found, rfl⟩
  constructor
  · have arranged := (order.perm (best.toList.map Prod.snd)).map icao24Of
    have keys :
        (best.toList.map Prod.snd).map icao24Of =
          best.toList.map Prod.fst := by
      rw [List.map_map]
      apply List.map_congr_left
      intro pair member
      rcases pair with ⟨aircraft, holder⟩
      rw [Std.ExtTreeMap.mem_toList_iff_getElem?_eq_some] at member
      exact (collected.held member).2.1
    have once : (best.toList.map Prod.fst).Nodup := by
      rw [List.Nodup, List.pairwise_map]
      refine Std.ExtTreeMap.distinct_keys_toList.imp ?_
      intro first second different
      rwa [Std.LawfulEqCmp.compare_eq_iff_eq] at different
    rw [List.map_map, dedupByAircraft, bestIs]
    rw [← keys] at once
    exact arranged.nodup_iff.mpr once
  · intro copy
    constructor
    · intro member
      obtain ⟨hit, hitMember, rfl⟩ := List.mem_map.mp member
      obtain ⟨seen, -, highest⟩ := collected.held ((kept hit).mp hitMember)
      refine ⟨List.mem_map_of_mem seen, ?_⟩
      intro other otherMember same
      obtain ⟨otherHit, otherSeen, rfl⟩ := List.mem_map.mp otherMember
      exact highest otherHit otherSeen same
    · intro membership
      rcases membership with ⟨member, highest⟩
      obtain ⟨hit, seen, rfl⟩ := List.mem_map.mp member
      obtain ⟨holder, found⟩ := collected.known hit seen
      obtain ⟨holderSeen, holderIs, holderBest⟩ := collected.held found
      have holderKept : holder ∈ dedupByAircraft order hits := by
        rw [kept, holderIs]
        exact found
      have sameCopy : copyOf holder = copyOf hit :=
        Prod.ext holderIs
          (le_antisymm
            (highest (copyOf holder) (List.mem_map_of_mem holderSeen) holderIs)
            (holderBest hit seen rfl))
      rw [← sameCopy]
      exact List.mem_map_of_mem holderKept

/-- The sorted survivors are the ranking of the copies. -/
theorem map_copyOf_sortHits_dedup (order : IterationOrder (SearchHit real))
    (hits : List (SearchHit real)) :
    (sortHits (dedupByAircraft order hits)).map copyOf =
      ranking byScore (hits.map copyOf) := by
  have condenses := condenses_dedupByAircraft order hits
  have sorted :
      (sortHits (dedupByAircraft order hits)).map copyOf =
        sortBy byScore.le ((dedupByAircraft order hits).map copyOf) := by
    apply map_sortBy
    intro first second
    rfl
  rw [sorted]
  have arranged := sortBy_perm byScore.le
    ((dedupByAircraft order hits).map copyOf)
  apply Condenses.eq_ranking byScore
  · refine ⟨(arranged.map Prod.fst).nodup_iff.mpr condenses.once, ?_⟩
    intro copy
    rw [arranged.mem_iff, condenses.best]
  · exact pairwise_sortBy byScore.trans byScore.total _

theorem length_dedupByAircraft (order : IterationOrder (SearchHit real))
    (hits : List (SearchHit real)) :
    (dedupByAircraft order hits).length =
      (ranking byScore (hits.map copyOf)).length := by
  have shown := congrArg List.length (map_copyOf_sortHits_dedup order hits)
  rw [List.length_map] at shown
  rw [← shown]
  exact (sortBy_perm _ (dedupByAircraft order hits)).length_eq.symm

/-! ## Which hit wins -/

/-- The hit that wins its aircraft: it supersedes every earlier copy and no
later copy supersedes it. -/
def Prevails (hits : List (SearchHit real)) (hit : SearchHit real) : Prop :=
  ∃ before after, hits = before ++ hit :: after ∧
    (∀ other ∈ before, icao24Of other = icao24Of hit →
      supersedes hit other = true) ∧
    ∀ other ∈ after, icao24Of other = icao24Of hit →
      supersedes other hit = false

theorem Prevails.mem {hits : List (SearchHit real)} {hit : SearchHit real}
    (prevails : Prevails hits hit) : hit ∈ hits := by
  obtain ⟨before, after, rfl, -, -⟩ := prevails
  simp

theorem prevails_concat_iff (seen : List (SearchHit real))
    (last hit : SearchHit real) :
    Prevails (seen ++ [last]) hit ↔
      (Prevails seen hit ∧
        (icao24Of last = icao24Of hit → supersedes last hit = false)) ∨
      (hit = last ∧ ∀ other ∈ seen, icao24Of other = icao24Of hit →
        supersedes hit other = true) := by
  constructor
  · intro prevailing
    rcases prevailing with ⟨before, after, split, beats, unbeaten⟩
    rcases List.eq_nil_or_concat after with rfl | ⟨later, final, rfl⟩
    · have parts := List.append_inj' split rfl
      have lastIs : last = hit := by
        simpa using parts.2
      refine Or.inr ⟨lastIs.symm, ?_⟩
      rw [parts.1]
      exact beats
    · rw [List.concat_eq_append, ← List.cons_append,
        ← List.append_assoc] at split
      have parts := List.append_inj' split rfl
      have lastIs : last = final := by
        simpa using parts.2
      subst lastIs
      refine Or.inl ⟨⟨before, later, parts.1, beats, ?_⟩, ?_⟩
      · intro other member
        exact unbeaten other (by simp [member])
      · exact unbeaten last (by simp)
  · intro prevailing
    rcases prevailing with
      ⟨⟨before, after, rfl, beats, unbeaten⟩, notBeaten⟩ | ⟨rfl, beats⟩
    · refine ⟨before, after ++ [last], by simp, beats, ?_⟩
      intro other member
      rcases List.mem_append.mp member with old | new
      · exact unbeaten other old
      · rw [List.mem_singleton.mp new]
        exact notBeaten
    · exact ⟨seen, [], rfl, beats, by simp⟩

/-- The last hit takes the place of its aircraft if it supersedes every earlier
copy. -/
private theorem keepBest_of_collected {seen : List (SearchHit real)}
    {best : Std.ExtTreeMap String (SearchHit real)}
    (collected : Collected best seen) (last : SearchHit real) :
    keepBest best last =
      if ∀ other ∈ seen, icao24Of other = icao24Of last →
        supersedes last other = true
      then best.insert (icao24Of last) last else best := by
  cases found : best[icao24Of last]? with
  | none =>
      rw [if_pos]
      · simp only [keepBest, found]
      · intro other member same
        obtain ⟨holder, held⟩ := collected.known other member
        rw [same, found] at held
        contradiction
  | some existing =>
      obtain ⟨member, existingIs, highest⟩ := collected.held found
      simp only [keepBest, found]
      congr 1
      apply propext
      constructor
      · intro beats other otherMember same
        rw [supersedes_iff] at beats ⊢
        exact (highest other otherMember same).trans_lt beats
      · intro beats
        exact beats existing member existingIs

/-- A hit that supersedes the one held supersedes every earlier copy. -/
private theorem Collected.supersedes_all {seen : List (SearchHit real)}
    {best : Std.ExtTreeMap String (SearchHit real)}
    (collected : Collected best seen) {last hit : SearchHit real}
    {aircraft : String} (held : best[aircraft]? = some hit)
    (shared : icao24Of last = aircraft)
    (beats : supersedes last hit = true) :
    ∀ other ∈ seen, icao24Of other = icao24Of last →
      supersedes last other = true := by
  intro other member same
  have below := (collected.held held).2.2 other member (same.trans shared)
  rw [supersedes_iff] at beats ⊢
  exact below.trans_lt beats

/-- A last hit that takes its place is the only one of its aircraft to
prevail. -/
private theorem prevails_concat_same {seen : List (SearchHit real)}
    {last hit : SearchHit real}
    (wins : ∀ other ∈ seen, icao24Of other = icao24Of last →
      supersedes last other = true)
    (shared : icao24Of hit = icao24Of last) :
    Prevails (seen ++ [last]) hit ↔ last = hit := by
  rw [prevails_concat_iff]
  constructor
  · intro prevailing
    rcases prevailing with ⟨prevails, notBeaten⟩ | ⟨rfl, -⟩
    · have beaten := wins hit prevails.mem shared
      rw [notBeaten shared.symm] at beaten
      contradiction
    · rfl
  · intro equality
    subst equality
    exact Or.inr ⟨rfl, wins⟩

/-- The map of the best hits holds the winner of every aircraft. -/
theorem getElem?_foldl_keepBest (hits : List (SearchHit real))
    (aircraft : String) (hit : SearchHit real) :
    (hits.foldl keepBest ∅)[aircraft]? = some hit ↔
      icao24Of hit = aircraft ∧ Prevails hits hit := by
  induction hits using List.reverseRecOn generalizing aircraft hit with
  | nil =>
      simp [Prevails]
  | append_singleton seen last inductionHypothesis =>
      have collected := collected_foldl seen
      rw [List.foldl_append, List.foldl_cons, List.foldl_nil,
        keepBest_of_collected collected]
      generalize seen.foldl keepBest ∅ = best at *
      by_cases wins : ∀ other ∈ seen, icao24Of other = icao24Of last →
          supersedes last other = true
      · rw [if_pos wins]
        simp only [Std.ExtTreeMap.getElem?_insert,
          Std.LawfulEqCmp.compare_eq_iff_eq]
        by_cases same : icao24Of last = aircraft
        · rw [if_pos same, Option.some.injEq]
          constructor
          · intro equality
            subst equality
            exact ⟨same, (prevails_concat_same wins rfl).mpr rfl⟩
          · intro prevailing
            rcases prevailing with ⟨hitIs, prevails⟩
            exact (prevails_concat_same wins
              (hitIs.trans same.symm)).mp prevails
        · rw [if_neg same, inductionHypothesis, prevails_concat_iff]
          constructor
          · intro prevailing
            rcases prevailing with ⟨hitIs, prevails⟩
            refine ⟨hitIs, Or.inl ⟨prevails, ?_⟩⟩
            intro shared
            exact absurd (shared.trans hitIs) same
          · intro prevailing
            rcases prevailing with ⟨hitIs, ⟨prevails, -⟩ | ⟨rfl, -⟩⟩
            · exact ⟨hitIs, prevails⟩
            · exact absurd hitIs same
      · rw [if_neg wins, inductionHypothesis, prevails_concat_iff]
        constructor
        · intro prevailing
          rcases prevailing with ⟨hitIs, prevails⟩
          refine ⟨hitIs, Or.inl ⟨prevails, ?_⟩⟩
          intro shared
          by_contra beats
          rw [Bool.not_eq_false] at beats
          have held := (inductionHypothesis aircraft hit).mpr
            ⟨hitIs, prevails⟩
          exact wins (collected.supersedes_all held
            (shared.trans hitIs) beats)
        · intro prevailing
          rcases prevailing with ⟨hitIs, ⟨prevails, -⟩ | ⟨rfl, beats⟩⟩
          · exact ⟨hitIs, prevails⟩
          · exact absurd beats wins

theorem mem_dedupByAircraft_iff (order : IterationOrder (SearchHit real))
    (hits : List (SearchHit real)) (hit : SearchHit real) :
    hit ∈ dedupByAircraft order hits ↔ Prevails hits hit := by
  rw [dedupByAircraft, IterationOrder.mem_arrange, List.mem_map]
  constructor
  · intro membership
    rcases membership with ⟨⟨aircraft, holder⟩, member, rfl⟩
    rw [Std.ExtTreeMap.mem_toList_iff_getElem?_eq_some,
      getElem?_foldl_keepBest] at member
    exact member.2
  · intro prevails
    refine ⟨(icao24Of hit, hit), ?_, rfl⟩
    rw [Std.ExtTreeMap.mem_toList_iff_getElem?_eq_some,
      getElem?_foldl_keepBest]
    exact ⟨rfl, prevails⟩

theorem Prevails.unique {hits : List (SearchHit real)}
    {first second : SearchHit real} (firstPrevails : Prevails hits first)
    (secondPrevails : Prevails hits second)
    (same : icao24Of first = icao24Of second) : first = second := by
  have firstHeld := (getElem?_foldl_keepBest hits _ first).mpr
    ⟨rfl, firstPrevails⟩
  have secondHeld := (getElem?_foldl_keepBest hits _ second).mpr
    ⟨rfl, secondPrevails⟩
  rw [same, secondHeld] at firstHeld
  exact (Option.some.inj firstHeld).symm

theorem exists_prevails {hits : List (SearchHit real)}
    {hit : SearchHit real} (member : hit ∈ hits) :
    ∃ winner, Prevails hits winner ∧ icao24Of winner = icao24Of hit := by
  obtain ⟨winner, held⟩ := (collected_foldl hits).known hit member
  rw [getElem?_foldl_keepBest] at held
  exact ⟨winner, held.2, held.1⟩

end AetherEngine.Coordinator
