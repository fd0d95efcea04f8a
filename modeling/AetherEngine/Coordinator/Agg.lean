import AetherEngine.Common.DigestDoubles
import AetherEngine.Coordinator.Service
import AetherEngine.Shard.Agg
import Mathlib.Algebra.Field.Rat
import Mathlib.Algebra.Order.Ring.Rat

/-!
# Merging partial aggregates

The coordinator sums counts and buckets and unites digests.  However the
documents are split over shards, and however merged results are merged again,
the counts and buckets come out as those of one pass over all documents, and the
digest stands for every document with a finite value.
-/

namespace AetherEngine.Coordinator

open AetherEngine.Common
open AetherEngine.Doubles
open AetherEngine.Ranking
open AetherEngine.Shard
open AetherEngine.Tables

variable {real : Type}

/-! ## The merge -/

/-- The counts of one more partial. -/
def addBuckets (order : IterationOrder (String × UInt64))
    (buckets more : Std.ExtTreeMap String UInt64) :
    Std.ExtTreeMap String UInt64 :=
  (order.arrange more.toList).foldl
    (fun buckets entry => addTo buckets entry.1 entry.2) buckets

/-- Unite with the digest of one more partial. -/
def mergeDigest (floats : DigestFloats real) (digest : TDigest real) :
    Option (DigestMessage real) → Option (TDigest real)
  | some parts => do
      let shard ← TDigest.fromParts floats parts.centroidMean
        parts.centroidWeight
      digest.merge floats shard
  | none => some digest

/-- Take in one partial. -/
def mergePartial (floats : DigestFloats real)
    (order : IterationOrder (String × UInt64)) (gathered : Gathered real)
    (summary : AggregatePartial real) : Option (Gathered real) := do
  let digest ← mergeDigest floats gathered.digest summary.digest
  some
    { count := gathered.count + summary.count
      buckets := addBuckets order gathered.buckets summary.buckets
      digest := digest }

/-- The requested percentiles of a digest that has samples. -/
def resolvePercentiles (floats : DigestFloats real) (kind : AggKind)
    (digest : TDigest real) (requested : List real) :
    List (Percentile real) :=
  if kind = .percentiles ∧ digest.isEmpty floats = false then
    requested.map (fun p =>
      { p := p
        value := digest.quantile floats (floats.div p (floats.ofNat 100)) })
  else
    []

/-- Merge partials and resolve the requested percentiles. -/
def mergePartials (floats : DigestFloats real)
    (order : IterationOrder (String × UInt64)) (kind : AggKind)
    (partials : List (AggregatePartial real)) (requested : List real) :
    Option (AggregatePartial real × List (Percentile real)) := do
  let gathered ← partials.foldlM (mergePartial floats order)
    { count := 0, buckets := ∅, digest := .new floats }
  let percentiles :=
    resolvePercentiles floats kind gathered.digest requested
  let (_, parts) ← gathered.digest.toParts floats
  some
    ({ kind := kind
       count := gathered.count
       buckets := gathered.buckets
       digest :=
         if kind = .percentiles then some ⟨parts.1, parts.2⟩ else none },
      percentiles)

/-! ## Buckets -/

private theorem getElem?_addTo (buckets : Std.ExtTreeMap String UInt64)
    (key other : String) (amount : UInt64) :
    (addTo buckets key amount)[other]? =
      if key = other then some (buckets[key]?.getD 0 + amount)
      else buckets[other]? := by
  rw [addTo, getElem?_alter]

/-- Entries of distinct keys are added each to its own bucket. -/
theorem getElem?_foldl_addTo {entries : List (String × UInt64)}
    (once : (entries.map Prod.fst).Nodup)
    (buckets : Std.ExtTreeMap String UInt64) (key : String) :
    (entries.foldl (fun buckets entry => addTo buckets entry.1 entry.2)
        buckets)[key]? =
      match entries.find? (fun entry => entry.1 = key) with
      | some entry => some (buckets[key]?.getD 0 + entry.2)
      | none => buckets[key]? := by
  induction entries generalizing buckets with
  | nil =>
      rfl
  | cons entry rest inductionHypothesis =>
      rw [List.map_cons, List.nodup_cons] at once
      rw [List.foldl_cons, inductionHypothesis once.2, List.find?_cons,
        getElem?_addTo]
      by_cases same : entry.1 = key
      · have absent :
            rest.find? (fun entry => decide (entry.1 = key)) = none := by
          rw [List.find?_eq_none]
          intro other member found
          rw [decide_eq_true_eq, ← same] at found
          exact once.1 (List.mem_map.mpr ⟨other, member, found⟩)
        simp [same, absent]
      · simp [same]

private theorem getElem?_addBuckets (order : IterationOrder (String × UInt64))
    (buckets more : Std.ExtTreeMap String UInt64) (key : String) :
    (addBuckets order buckets more)[key]? =
      match more[key]? with
      | some amount => some (buckets[key]?.getD 0 + amount)
      | none => buckets[key]? := by
  have once : ((order.arrange more.toList).map Prod.fst).Nodup :=
    ((order.perm more.toList).map Prod.fst).nodup_iff.mpr (nodup_keys more)
  rw [addBuckets, getElem?_foldl_addTo once]
  cases found :
      (order.arrange more.toList).find? (fun entry => entry.1 = key) with
  | none =>
      rw [List.find?_eq_none] at found
      have absent : more[key]? = none := by
        apply Option.eq_none_iff_forall_ne_some.mpr
        intro amount present
        exact found (key, amount)
          ((IterationOrder.mem_arrange order).mpr
            ((mem_toList _ _ _).mpr present))
          (by simp)
      rw [absent]
  | some entry =>
      have member := List.mem_of_find?_eq_some found
      have same := List.find?_some found
      rw [IterationOrder.mem_arrange, mem_toList] at member
      rw [decide_eq_true_eq] at same
      rw [← same, member]

/-! ## What a partial stands for -/

section Stands

variable (rules : FloatRules real) (text : BucketText real)
variable (request : AggregateRequest real)

/-- How many documents count in a bucket, if any does. -/
def bucketCount (docs : List (FlightDocument real)) (key : String) :
    Option UInt64 :=
  let number :=
    docs.countP (fun doc => bucketOf rules text request doc = some key)
  if number = 0 then none else some number.toUInt64

/-- How many documents have a finite sample. -/
def sampleCount (isFinite : real → Bool)
    (docs : List (FlightDocument real)) : Nat :=
  docs.countP (fun doc => (sampleOf rules request doc).any isFinite)

/-- The documents that pass the request's filter. -/
def passing (docs : List (FlightDocument real)) :
    List (FlightDocument real) :=
  docs.filter (fun doc => Filter.passes rules doc request.filter)

variable {rules text request}

private theorem bucketCount_append (docs more : List (FlightDocument real))
    (key : String) :
    bucketCount rules text request (docs ++ more) key =
      match bucketCount rules text request more key with
      | some amount =>
          some ((bucketCount rules text request docs key).getD 0 + amount)
      | none => bucketCount rules text request docs key := by
  simp only [bucketCount, List.countP_append]
  generalize docs.countP _ = first
  generalize more.countP _ = second
  by_cases secondZero : second = 0
  · simp [secondZero]
  · by_cases firstZero : first = 0
    · simp [firstZero, secondZero]
    · simp [firstZero, secondZero]

theorem sampleCount_of_not_percentiles (simple : request.kind ≠ .percentiles)
    (isFinite : real → Bool) (docs : List (FlightDocument real)) :
    sampleCount rules request isFinite docs = 0 := by
  rw [sampleCount, List.countP_eq_zero]
  intro doc _
  have none : sampleOf rules request doc = none := by
    rw [sampleOf]
    split
    · contradiction
    · rfl
  simp [none]

theorem sampleCount_append (isFinite : real → Bool)
    (docs more : List (FlightDocument real)) :
    sampleCount rules request isFinite (docs ++ more) =
      sampleCount rules request isFinite docs +
        sampleCount rules request isFinite more :=
  List.countP_append

variable (floats : DigestFloats real)
variable (stands : Nat → Centroid real → Prop)

variable (rules text request) in
/-- A pass or a merge has taken in the documents. -/
structure Gathers (gathered : Gathered real)
    (docs : List (FlightDocument real)) : Prop where
  counted : gathered.count = docs.length.toUInt64
  bucketed : ∀ key,
    gathered.buckets[key]? = bucketCount rules text request docs key
  weighed : gathered.digest.Stands floats stands
    (sampleCount rules request floats.isFinite docs)

variable (rules text request) in
/-- A partial stands for the documents. -/
structure Condenses (summary : AggregatePartial real)
    (docs : List (FlightDocument real)) : Prop where
  counted : summary.count = docs.length.toUInt64
  bucketed : ∀ key,
    summary.buckets[key]? = bucketCount rules text request docs key
  digested :
    if request.kind = .percentiles then
      ∃ points, summary.digest =
          some ⟨TDigest.means points, TDigest.weights points⟩ ∧
        TDigest.Shares stands points
          (sampleCount rules request floats.isFinite docs)
    else
      summary.digest = none

variable (rules request) in
/-- A finite sample of these documents may become a centroid. -/
def Admits (docs : List (FlightDocument real)) : Prop :=
  ∀ doc ∈ docs, ∀ sample, sampleOf rules request doc = some sample →
    floats.isFinite sample = true → stands 1 ⟨sample, floats.ofNat 1⟩

variable {floats stands}

/-- What a partial stands for does not depend on the order of the documents. -/
theorem Condenses.perm {summary : AggregatePartial real}
    {docs docs' : List (FlightDocument real)}
    (condenses : Condenses rules text request floats stands summary docs)
    (permuted : docs.Perm docs') :
    Condenses rules text request floats stands summary docs' where
  counted := by
    rw [← permuted.length_eq]
    exact condenses.counted
  bucketed key := by
    rw [bucketCount, ← permuted.countP_eq]
    exact condenses.bucketed key
  digested := by
    rw [sampleCount, ← permuted.countP_eq]
    exact condenses.digested

/-- Partials that stand for the same documents agree. -/
theorem Condenses.agree {first second : AggregatePartial real}
    {docs : List (FlightDocument real)}
    (left : Condenses rules text request floats stands first docs)
    (right : Condenses rules text request floats stands second docs) :
    first.count = second.count ∧ first.buckets = second.buckets := by
  refine ⟨left.counted.trans right.counted.symm, ?_⟩
  apply Std.ExtTreeMap.ext_getElem?
  intro key
  rw [left.bucketed, right.bucketed]

/-! ## One pass over documents -/

variable {limit : Nat} {accounts : real → Centroid real → Prop}
variable (standing : TDigest.Standing floats limit stands accounts)

private theorem gathers_nothing :
    Gathers rules text request floats stands
      { count := 0, buckets := ∅, digest := .new floats } [] where
  counted := rfl
  bucketed key := by
    simp [bucketCount]
  weighed := TDigest.stands_withDelta (floats.ofNat 100)

include standing in
theorem Gathers.gather {gathered : Gathered real}
    {docs : List (FlightDocument real)}
    (gathers : Gathers rules text request floats stands gathered docs)
    {doc : FlightDocument real}
    (admits : Admits rules request floats stands [doc])
    (few : sampleCount rules request floats.isFinite (docs ++ [doc]) ≤
      limit) :
    ∃ after, Shard.gather floats rules text request gathered doc =
        some after ∧
      Gathers rules text request floats stands after (docs ++ [doc]) := by
  have count : gathered.count + 1 = (docs ++ [doc]).length.toUInt64 := by
    rw [gathers.counted, List.length_append]
    simp
  have digested : ∃ digest,
      addSample floats gathered.digest (sampleOf rules request doc) =
        some digest ∧
      digest.Stands floats stands
        (sampleCount rules request floats.isFinite (docs ++ [doc])) := by
    rw [sampleCount_append, sampleCount, sampleCount,
      List.countP_singleton] at few ⊢
    cases sample : sampleOf rules request doc with
    | none =>
        exact ⟨gathered.digest, rfl, gathers.weighed⟩
    | some value =>
        rw [sample] at few
        exact standing.add gathers.weighed
          (admits doc (List.mem_singleton_self doc) value sample) few
  obtain ⟨digest, added, weighs⟩ := digested
  refine ⟨⟨gathered.count + 1,
    countBucket gathered.buckets (bucketOf rules text request doc), digest⟩,
    ?_, ⟨count, ?_, weighs⟩⟩
  · rw [Shard.gather, added]
    rfl
  · intro key
    rw [bucketCount_append]
    cases bucket : bucketOf rules text request doc with
    | none =>
        simp [countBucket, bucketCount, bucket, gathers.bucketed]
    | some found =>
        rw [countBucket, getElem?_addTo]
        by_cases same : found = key
        · simp [bucketCount, bucket, same, gathers.bucketed]
        · simp [bucketCount, bucket, same, gathers.bucketed]

include standing in
theorem Gathers.foldlM {gathered : Gathered real}
    {docs more : List (FlightDocument real)}
    (gathers : Gathers rules text request floats stands gathered docs)
    (admits : Admits rules request floats stands more)
    (few : sampleCount rules request floats.isFinite (docs ++ more) ≤
      limit) :
    ∃ after, more.foldlM (Shard.gather floats rules text request) gathered =
        some after ∧
      Gathers rules text request floats stands after (docs ++ more) := by
  induction more generalizing gathered docs with
  | nil =>
      refine ⟨gathered, rfl, ?_⟩
      rw [List.append_nil]
      exact gathers
  | cons doc rest inductionHypothesis =>
      have together : docs ++ doc :: rest = docs ++ [doc] ++ rest := by
        rw [List.append_assoc, List.singleton_append]
      rw [together] at few ⊢
      have first : sampleCount rules request floats.isFinite
          (docs ++ [doc]) ≤ limit := by
        rw [sampleCount_append] at few
        omega
      obtain ⟨next, taken, nextGathers⟩ := gathers.gather standing
        (fun other member => admits other
          (List.mem_cons.mpr (Or.inl (List.mem_singleton.mp member)))) first
      obtain ⟨after, finished, afterGathers⟩ := inductionHypothesis
        nextGathers
        (fun other member => admits other (List.mem_cons_of_mem doc member))
        few
      refine ⟨after, ?_, afterGathers⟩
      rw [List.foldlM_cons, taken]
      exact finished

include standing in
/-- One pass stands for the documents it passes over. -/
theorem condenses_summarize {docs : List (FlightDocument real)}
    (admits : Admits rules request floats stands docs)
    (few : sampleCount rules request floats.isFinite docs ≤ limit) :
    ∃ summary, summarize floats rules text docs request = some summary ∧
      Condenses rules text request floats stands summary docs := by
  obtain ⟨gathered, finished, gathers⟩ :=
    gathers_nothing.foldlM standing admits few
  rw [List.nil_append] at gathers
  by_cases digests : request.kind = .percentiles
  · obtain ⟨after, points, parts, shares⟩ :=
      standing.toParts gathers.weighed few
    have sent : sentDigest floats request.kind gathered.digest =
        some (some ⟨TDigest.means points, TDigest.weights points⟩) := by
      rw [sentDigest, if_pos digests, parts, Option.map_some]
    refine ⟨⟨request.kind, gathered.count, gathered.buckets,
      some ⟨TDigest.means points, TDigest.weights points⟩⟩, ?_,
      ⟨gathers.counted, gathers.bucketed, ?_⟩⟩
    · simp only [summarize, finished, sent, Option.bind_eq_bind,
        Option.bind_some]
    · rw [if_pos digests]
      exact ⟨points, rfl, shares⟩
  · refine ⟨⟨request.kind, gathered.count, gathered.buckets, none⟩, ?_,
      ⟨gathers.counted, gathers.bucketed, ?_⟩⟩
    · simp only [summarize, finished, sentDigest, if_neg digests,
        Option.bind_eq_bind, Option.bind_some]
    · rw [if_neg digests]

/-! ## Merging -/

include standing in
theorem Gathers.mergePartial {gathered : Gathered real}
    {docs more : List (FlightDocument real)}
    {summary : AggregatePartial real}
    (gathers : Gathers rules text request floats stands gathered docs)
    (condenses : Condenses rules text request floats stands summary more)
    (few : sampleCount rules request floats.isFinite (docs ++ more) ≤ limit)
    (order : IterationOrder (String × UInt64)) :
    ∃ after, Coordinator.mergePartial floats order gathered summary =
        some after ∧
      Gathers rules text request floats stands after (docs ++ more) := by
  have count :
      gathered.count + summary.count = (docs ++ more).length.toUInt64 := by
    rw [gathers.counted, condenses.counted, List.length_append]
    simp
  have bucketed : ∀ key,
      (addBuckets order gathered.buckets summary.buckets)[key]? =
        bucketCount rules text request (docs ++ more) key := by
    intro key
    rw [getElem?_addBuckets, bucketCount_append, gathers.bucketed,
      condenses.bucketed]
  have digested := condenses.digested
  rw [sampleCount_append] at few
  by_cases digests : request.kind = .percentiles
  · rw [if_pos digests] at digested
    obtain ⟨points, digestIs, shares⟩ := digested
    obtain ⟨shard, restored, empty, shardShares⟩ := standing.fromParts shares
    obtain ⟨digest, merged, digestEmpty, both⟩ := standing.merge
      gathers.weighed (TDigest.stands_of_centroids empty shardShares) few
    have weighed : digest.Stands floats stands
        (sampleCount rules request floats.isFinite (docs ++ more)) := by
      rw [sampleCount_append]
      exact TDigest.stands_of_centroids digestEmpty both
    refine ⟨⟨gathered.count + summary.count,
      addBuckets order gathered.buckets summary.buckets, digest⟩, ?_,
      ⟨count, bucketed, weighed⟩⟩
    simp only [Coordinator.mergePartial, mergeDigest, digestIs, restored,
      merged, Option.bind_eq_bind, Option.bind_some]
  · rw [if_neg digests] at digested
    have weighed := gathers.weighed
    rw [sampleCount_of_not_percentiles digests] at weighed
    refine ⟨⟨gathered.count + summary.count,
      addBuckets order gathered.buckets summary.buckets, gathered.digest⟩,
      ?_, ⟨count, bucketed, ?_⟩⟩
    · simp only [Coordinator.mergePartial, mergeDigest, digested,
        Option.bind_eq_bind, Option.bind_some]
    · rw [sampleCount_of_not_percentiles digests]
      exact weighed

include standing in
private theorem Gathers.foldlM_mergePartial {gathered : Gathered real}
    {docs : List (FlightDocument real)}
    (gathers : Gathers rules text request floats stands gathered docs)
    (order : IterationOrder (String × UInt64))
    {partials : List (AggregatePartial real)}
    {slices : List (List (FlightDocument real))}
    (condense : List.Forall₂ (Condenses rules text request floats stands)
      partials slices)
    (few : sampleCount rules request floats.isFinite
      (docs ++ slices.flatten) ≤ limit) :
    ∃ after, partials.foldlM (Coordinator.mergePartial floats order)
        gathered = some after ∧
      Gathers rules text request floats stands after
        (docs ++ slices.flatten) := by
  induction condense generalizing gathered docs with
  | nil =>
      refine ⟨gathered, rfl, ?_⟩
      rw [List.flatten_nil, List.append_nil]
      exact gathers
  | cons first _ inductionHypothesis =>
      rw [List.flatten_cons, ← List.append_assoc] at few ⊢
      obtain ⟨next, taken, nextGathers⟩ := gathers.mergePartial standing first
        (by rw [sampleCount_append] at few; omega) order
      obtain ⟨after, finished, afterGathers⟩ :=
        inductionHypothesis nextGathers few
      refine ⟨after, ?_, afterGathers⟩
      rw [List.foldlM_cons, taken]
      exact finished

include standing in
/-- A merge stands for what its parts stand for together. -/
theorem condenses_mergePartials
    (order : IterationOrder (String × UInt64)) (requested : List real)
    {partials : List (AggregatePartial real)}
    {slices : List (List (FlightDocument real))}
    (condense : List.Forall₂ (Condenses rules text request floats stands)
      partials slices)
    (few : sampleCount rules request floats.isFinite slices.flatten ≤
      limit) :
    ∃ merged percentiles,
      mergePartials floats order request.kind partials requested =
        some (merged, percentiles) ∧
      Condenses rules text request floats stands merged slices.flatten := by
  obtain ⟨gathered, finished, gathers⟩ :=
    gathers_nothing.foldlM_mergePartial standing order condense few
  rw [List.nil_append] at gathers
  obtain ⟨after, points, parts, shares⟩ :=
    standing.toParts gathers.weighed few
  refine ⟨⟨request.kind, gathered.count, gathered.buckets,
    if request.kind = .percentiles then
      some ⟨TDigest.means points, TDigest.weights points⟩ else none⟩,
    resolvePercentiles floats request.kind gathered.digest requested, ?_,
    ⟨gathers.counted, gathers.bucketed, ?_⟩⟩
  · simp only [mergePartials, finished, parts, Option.bind_eq_bind,
      Option.bind_some]
  · by_cases digests : request.kind = .percentiles
    · rw [if_pos digests]
      exact ⟨points, if_pos digests, shares⟩
    · rw [if_neg digests]
      exact if_neg digests

end Stands

/-! ## Any sharding, any nesting -/

/-- How partials are merged: the documents of one shard, or a merge of what was
merged before. -/
inductive MergeTree (real : Type) where
  | shard (docs : List (FlightDocument real))
  | merge (order : IterationOrder (String × UInt64)) (requested : List real)
      (parts : List (MergeTree real))

namespace MergeTree

mutual

/-- All documents below. -/
def docs : MergeTree real → List (FlightDocument real)
  | shard docs => docs
  | merge _ _ parts => docsOf parts

def docsOf : List (MergeTree real) → List (FlightDocument real)
  | [] => []
  | part :: rest => part.docs ++ docsOf rest

end

variable (floats : DigestFloats real) (rules : FloatRules real)
variable (text : BucketText real) (request : AggregateRequest real)

mutual

/-- The partial the merges come to; every shard aggregates its documents that
pass the filter. -/
def evaluate : MergeTree real → Option (AggregatePartial real)
  | shard docs =>
      summarize floats rules text
        (docs.filter (fun doc => Filter.passes rules doc request.filter))
        request
  | merge order requested parts => do
      let partials ← evaluateAll parts
      let (merged, _) ←
        mergePartials floats order request.kind partials requested
      some merged

def evaluateAll :
    List (MergeTree real) → Option (List (AggregatePartial real))
  | [] => some []
  | part :: rest => do
      let first ← evaluate part
      let others ← evaluateAll rest
      some (first :: others)

end

end MergeTree

section Tree

variable {floats : DigestFloats real} {limit : Nat}
variable {stands : Nat → Centroid real → Prop}
variable {accounts : real → Centroid real → Prop}
variable {rules : FloatRules real} (text : BucketText real)
variable {request : AggregateRequest real}

mutual

/-- However partials are merged, the last one stands for all documents. -/
theorem condenses_evaluate
    (standing : TDigest.Standing floats limit stands accounts)
    (tree : MergeTree real)
    (admits : Admits rules request floats stands
      (passing rules request tree.docs))
    (few : sampleCount rules request floats.isFinite
      (passing rules request tree.docs) ≤ limit) :
    ∃ summary, tree.evaluate floats rules text request = some summary ∧
      Condenses rules text request floats stands summary
        (passing rules request tree.docs) := by
  cases tree with
  | shard docs =>
      rw [MergeTree.docs] at admits few ⊢
      rw [MergeTree.evaluate]
      exact condenses_summarize standing admits few
  | merge order requested parts =>
      rw [MergeTree.docs] at admits few ⊢
      obtain ⟨partials, slices, evaluated, condense, flattened⟩ :=
        condenses_evaluateAll standing parts admits few
      rw [← flattened] at few ⊢
      obtain ⟨merged, percentiles, mergedIs, condenses⟩ :=
        condenses_mergePartials standing order requested condense few
      refine ⟨merged, ?_, condenses⟩
      simp only [MergeTree.evaluate, evaluated, mergedIs,
        Option.bind_eq_bind, Option.bind_some]

theorem condenses_evaluateAll
    (standing : TDigest.Standing floats limit stands accounts)
    (parts : List (MergeTree real))
    (admits : Admits rules request floats stands
      (passing rules request (MergeTree.docsOf parts)))
    (few : sampleCount rules request floats.isFinite
      (passing rules request (MergeTree.docsOf parts)) ≤ limit) :
    ∃ partials slices,
      MergeTree.evaluateAll floats rules text request parts =
        some partials ∧
      List.Forall₂ (Condenses rules text request floats stands) partials
        slices ∧
      slices.flatten = passing rules request (MergeTree.docsOf parts) := by
  cases parts with
  | nil =>
      exact ⟨[], [], rfl, .nil, rfl⟩
  | cons part rest =>
      have split : passing rules request
          (MergeTree.docsOf (part :: rest)) =
          passing rules request part.docs ++
            passing rules request (MergeTree.docsOf rest) := by
        rw [MergeTree.docsOf, passing, List.filter_append]
        rfl
      rw [split] at admits few ⊢
      rw [sampleCount_append] at few
      obtain ⟨first, evaluatedFirst, condensesFirst⟩ :=
        condenses_evaluate standing part
          (fun doc member => admits doc (List.mem_append_left _ member))
          (by omega)
      obtain ⟨others, slices, evaluated, condense, flattened⟩ :=
        condenses_evaluateAll standing rest
          (fun doc member => admits doc (List.mem_append_right _ member))
          (by omega)
      refine ⟨first :: others, _ :: slices, ?_,
        .cons condensesFirst condense, ?_⟩
      · simp only [MergeTree.evaluateAll, evaluatedFirst, evaluated,
          Option.bind_eq_bind, Option.bind_some]
      · rw [List.flatten_cons, flattened]

end

end Tree

/-! ## In exact arithmetic -/

section Exact

variable {K : Type} [Field K]

/-- The wire form of centroids that stand for numbers of samples. -/
def wireForm (points : List (K × Nat)) : DigestMessage (Double K) where
  centroidMean := points.map (fun point => .finite point.1)
  centroidWeight := points.map (fun point => .finite point.2)

variable (rules : FloatRules (Double K)) (text : BucketText (Double K))
variable (request : AggregateRequest (Double K))

/-- A partial stands for the documents, its digest weighs as many as have a
finite sample. -/
structure Summarizes (summary : AggregatePartial (Double K))
    (docs : List (FlightDocument (Double K))) : Prop where
  counted : summary.count = docs.length.toUInt64
  bucketed : ∀ key,
    summary.buckets[key]? = bucketCount rules text request docs key
  digested :
    if request.kind = .percentiles then
      ∃ points : List (K × Nat),
        summary.digest = some (wireForm points) ∧
        (∀ point ∈ points, 0 < point.2) ∧
        (points.map Prod.snd).sum =
          sampleCount rules request Double.isFinite docs
    else
      summary.digest = none

variable {rules text request}
variable [LinearOrder K] {scale : K → K → K}

theorem summarizes_iff_condenses {summary : AggregatePartial (Double K)}
    {docs : List (FlightDocument (Double K))} :
    Summarizes rules text request summary docs ↔
      Condenses rules text request (exactFloats scale) TDigest.Solid summary
        docs := by
  constructor
  · rintro ⟨counted, bucketed, digested⟩
    refine ⟨counted, bucketed, ?_⟩
    split
    · next digests =>
        rw [if_pos digests] at digested
        obtain ⟨points, digestIs, positive, sum⟩ := digested
        refine ⟨points.map TDigest.solid, ?_, ?_⟩
        · rw [digestIs, wireForm, TDigest.means, TDigest.weights,
            List.map_map, List.map_map]
          rfl
        · have shares := TDigest.shares_solid positive
          rw [sum] at shares
          exact shares
    · next plain =>
        rw [if_neg plain] at digested
        exact digested
  · rintro ⟨counted, bucketed, digested⟩
    refine ⟨counted, bucketed, ?_⟩
    split
    · next digests =>
        rw [if_pos digests] at digested
        obtain ⟨centroids, digestIs, shares⟩ := digested
        obtain ⟨points, rfl, positive, sum⟩ :=
          TDigest.Shares.exists_solid shares
        refine ⟨points, ?_, positive, sum⟩
        rw [digestIs, wireForm, TDigest.means, TDigest.weights,
          List.map_map, List.map_map]
        rfl
    · next plain =>
        rw [if_neg plain] at digested
        exact digested

variable [IsStrictOrderedRing K] (scale)

/-- One pass stands for the documents it passes over. -/
theorem summarizes_summarize (docs : List (FlightDocument (Double K))) :
    ∃ summary, summarize (exactFloats scale) rules text docs request =
        some summary ∧
      Summarizes rules text request summary docs := by
  have admits : Admits rules request (exactFloats scale) TDigest.Solid
      docs := fun _ _ _ _ finite => TDigest.solid_of_isFinite finite
  obtain ⟨summary, passed, condenses⟩ :=
    condenses_summarize (TDigest.standing_solid scale _) admits le_rfl
  exact ⟨summary, passed, summarizes_iff_condenses.mpr condenses⟩

/-- A merge stands for what its parts stand for together. -/
theorem summarizes_mergePartials
    (order : IterationOrder (String × UInt64))
    (requested : List (Double K))
    {partials : List (AggregatePartial (Double K))}
    {slices : List (List (FlightDocument (Double K)))}
    (summarize : List.Forall₂ (Summarizes rules text request) partials
      slices) :
    ∃ merged percentiles,
      mergePartials (exactFloats scale) order request.kind partials
          requested = some (merged, percentiles) ∧
      Summarizes rules text request merged slices.flatten := by
  have condense : List.Forall₂
      (Condenses rules text request (exactFloats scale) TDigest.Solid)
      partials slices :=
    summarize.imp fun _ _ => summarizes_iff_condenses.mp
  obtain ⟨merged, percentiles, mergedIs, condenses⟩ :=
    condenses_mergePartials (TDigest.standing_solid scale _) order requested
      condense le_rfl
  exact ⟨merged, percentiles, mergedIs,
    summarizes_iff_condenses.mpr condenses⟩

end Exact

end AetherEngine.Coordinator
