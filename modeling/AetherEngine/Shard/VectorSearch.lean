import AetherEngine.Foundations.Doubles
import AetherEngine.Shard.Quant
import AetherEngine.Shard.VectorRuns
import Mathlib.Algebra.Order.Field.Rat

/-!
# Searching the vector index

A small index is scanned exactly, a large one searched by its graph; in
quantized mode the compressed vectors choose the candidates and exact scores
rank them.  The exact scan and the two tiers are compared through the slots of
the live documents.

A query with an infinite component can have a score that is not a number.  The
sort takes such a score for equal to every other, which is no order any more:
what is said of the ranking holds for queries whose scores are numbers.
-/

namespace AetherEngine.Shard

open AetherEngine.Common
open AetherEngine.Doubles
open AetherEngine.Ranking
open AetherEngine.Tables

variable {single real : Type}

/-- The embedder, the floats and the neighbour graph. -/
structure VectorParts (single real : Type) where
  floats : SingleFloats single real
  Number : Type
  [order : LinearOrder Number]
  /-- What a score stands for, if it is a number. -/
  number : real → Option Number
  embed : String → List single
  Graph : Type
  newGraph : Graph
  insertPoint : Graph → List single → Nat → Graph
  /-- The points of the graph next to a query, as many as asked for, by distance
  and slot; the last argument is the breadth of the search. -/
  neighbours : Graph → List single → Nat → Nat → List (single × Nat)

attribute [instance] VectorParts.order

/-- There is no result where one of the two is not a number. -/
def VectorParts.partialCmp (parts : VectorParts single real)
    (first second : real) : Option Ordering := do
  let firstNumber ← parts.number first
  let secondNumber ← parts.number second
  some (compare firstNumber secondNumber)

/-- Score descending, ties broken by `icao24`; scores that do not compare
tie. -/
def cmpHits (parts : VectorParts single real)
    (first second : ScoredHit real) : Ordering :=
  ((parts.partialCmp second.score first.score).getD .eq).then
    (compare first.doc.icao24 second.doc.icao24)

def rankHits (parts : VectorParts single real)
    (hits : List (ScoredHit real)) : List (ScoredHit real) :=
  sortBy (fun first second => (cmpHits parts first second).isLE) hits

/-- Every score is a number. -/
def AllNumbers (parts : VectorParts single real)
    (hits : List (ScoredHit real)) : Prop :=
  ∀ hit ∈ hits, (parts.number hit.score).isSome = true

/-! ## The order of numbers -/

section Order

variable {parts : VectorParts single real} {hits hits' : List (ScoredHit real)}

theorem cmpHits_of_numbers {first second : ScoredHit real}
    (firstIs : (parts.number first.score).isSome = true)
    (secondIs : (parts.number second.score).isSome = true) :
    cmpHits parts first second =
      cmpScoreKey ((parts.number first.score).get firstIs, first.doc.icao24)
        ((parts.number second.score).get secondIs, second.doc.icao24) := by
  obtain ⟨higher, firstNumber⟩ := Option.isSome_iff_exists.mp firstIs
  obtain ⟨lower, secondNumber⟩ := Option.isSome_iff_exists.mp secondIs
  simp [cmpHits, VectorParts.partialCmp, firstNumber, secondNumber, cmpScoreKey]

theorem cmpHits_trans (first second third : ScoredHit real)
    (firstIs : (parts.number first.score).isSome = true)
    (secondIs : (parts.number second.score).isSome = true)
    (thirdIs : (parts.number third.score).isSome = true)
    (forth : (cmpHits parts first second).isLE = true)
    (onwards : (cmpHits parts second third).isLE = true) :
    (cmpHits parts first third).isLE = true := by
  rw [cmpHits_of_numbers firstIs secondIs] at forth
  rw [cmpHits_of_numbers secondIs thirdIs] at onwards
  rw [cmpHits_of_numbers firstIs thirdIs]
  exact cmpScoreKey_trans _ _ _ forth onwards

theorem cmpHits_total (first second : ScoredHit real)
    (firstIs : (parts.number first.score).isSome = true)
    (secondIs : (parts.number second.score).isSome = true) :
    ((cmpHits parts first second).isLE ||
      (cmpHits parts second first).isLE) = true := by
  rw [cmpHits_of_numbers firstIs secondIs, cmpHits_of_numbers secondIs firstIs]
  exact cmpScoreKey_total _ _

/-- Hits of distinct aircraft whose scores are numbers have one order. -/
theorem rankHits_eq_of_perm (numbers : AllNumbers parts hits)
    (permuted : hits.Perm hits')
    (once : (hits.map (fun hit => hit.doc.icao24)).Nodup) :
    rankHits parts hits = rankHits parts hits' := by
  apply sortBy_eq_of_perm_of_forall cmpHits_trans cmpHits_total permuted numbers
  intro first member second secondMember forth back
  rw [cmpHits_of_numbers (numbers first member) (numbers second secondMember)]
    at forth
  rw [cmpHits_of_numbers (numbers second secondMember) (numbers first member)]
    at back
  have same := cmpScoreKey_antisymm _ _ forth back
  exact List.inj_on_of_nodup_map once member secondMember
    (congrArg Prod.snd same)

end Order

/-! ## The parts of an index -/

/-- The engine of an index: the real quantizer over the given parts. -/
abbrev VectorParts.engine (parts : VectorParts single real) : VectorEngine where
  Vector := List single
  Quantized := QuantizedVector single
  Graph := parts.Graph
  embed := parts.embed
  quantize := QuantizedVector.quantize parts.floats
  newGraph := parts.newGraph
  insertPoint := parts.insertPoint

/-- Below this many slots a search scans them all. -/
def flatSearchThreshold : Nat := 256

/-- The breadth of a graph search. -/
def efSearch : Nat := 64

/-- The distance of a vector from a query, one less their product. -/
def scanDistance (query vector : List Int) : Int :=
  1 - dot wholeNumbers query vector

/-- Some points, nearest first. -/
def scanNearest (graph : List (List Int × Nat)) (query : List Int) :
    List (List Int × Nat) :=
  sortBy (fun first second =>
    decide (scanDistance query first.1 ≤ scanDistance query second.1)) graph

/-- A graph that keeps its points in a list and scans them. -/
def scanParts (embed : String → List Int) : VectorParts Int Int where
  floats := wholeNumbers
  Number := Int
  number := some
  embed := embed
  Graph := List (List Int × Nat)
  newGraph := []
  insertPoint graph vector slot := graph ++ [(vector, slot)]
  neighbours graph query n _ :=
    ((scanNearest graph query).take n).map
      (fun point => (scanDistance query point.1, point.2))

namespace VectorIndex

variable {parts : VectorParts single real}

/-! ## The searches -/

/-- The exact score of a vector. -/
def score (parts : VectorParts single real) (query vector : List single) :
    real :=
  parts.floats.widen (dot parts.floats query vector)

/-- The slots that are not tombstoned, of a list with one item for each. -/
def live {α : Type} (index : VectorIndex real parts.engine)
    (items : List α) : List (α × Nat) :=
  items.zipIdx.filter (fun entry => decide (entry.2 ∉ index.tombstoned))

/-- Exact scan over the current vector of every slot. -/
def searchFlat (index : VectorIndex real parts.engine) (query : List single)
    (k : Nat) : Option (List (ScoredHit real)) := do
  let hits ← (index.live index.slotVectors).mapM (fun entry => do
    let doc ← index.docs[entry.2]?
    some (⟨doc, score parts query entry.1⟩ : ScoredHit real))
  some ((rankHits parts hits).take k)

/-- The first tier: the live slots under the distance of their compressed
forms. -/
def candidates (index : VectorIndex real parts.engine) (query : List single) :
    List (Nat × Nat) :=
  let q := QuantizedVector.quantize parts.floats query
  (index.live index.quantized).map (fun entry => (q.hamming entry.1, entry.2))

/-- The sort by distance leaves ties in any order. -/
def sortCandidates (ties : IterationOrder (Nat × Nat))
    (candidates : List (Nat × Nat)) : List (Nat × Nat) :=
  sortBy (fun first second => decide (first.1 ≤ second.1))
    (ties.arrange candidates)

/-- The second tier: the exact score of a candidate. -/
def rescore (index : VectorIndex real parts.engine) (query : List single)
    (candidate : Nat × Nat) : Option (ScoredHit real) := do
  let doc ← index.docs[candidate.2]?
  let vector ← index.slotVectors[candidate.2]?
  some ⟨doc, score parts query vector⟩

/-- Two tiers: the compressed forms choose candidates, exact scores rank
them. -/
def searchQuantized (ties : IterationOrder (Nat × Nat))
    (index : VectorIndex real parts.engine) (query : List single)
    (k : Nat) : Option (List (ScoredHit real)) := do
  let candidates := index.candidates query
  -- the product is one of machine words
  let keep := min (k * oversample % 2 ^ 64) candidates.length
  let hits ← ((sortCandidates ties candidates).take keep).mapM
    (index.rescore query)
  some ((rankHits parts hits).take k)

/-- Collect the first hit of every live slot among the neighbours, up to as many
as asked for. -/
def collectHits (index : VectorIndex real parts.engine) (k : Nat) :
    List (single × Nat) → Finset Nat → List (ScoredHit real) →
      Option (List (ScoredHit real))
  | [], _, best => some best
  | (distance, slot) :: rest, seen, best =>
      if slot ∈ index.tombstoned then
        collectHits index k rest seen best
      else if slot ∈ seen then
        collectHits index k rest seen best
      else do
        let doc ← index.docs[slot]?
        let best := best ++
          [⟨doc, parts.floats.oneLess (parts.floats.widen distance)⟩]
        if best.length = k then
          some best
        else
          collectHits index k rest (Insert.insert slot seen) best

/-- How many points a graph search asks for: twice as many as are wanted, but at
most 32 more, and no more than there are. -/
def fetch (index : VectorIndex real parts.engine) (k : Nat) : Nat :=
  max (min (min (k * 2 % 2 ^ 64) ((k + 32) % 2 ^ 64)) index.vectorsTotal)
    (min k index.vectorsTotal)

/-- Approximate search by the graph. -/
def searchHnsw (index : VectorIndex real parts.engine) (query : List single)
    (k : Nat) : Option (List (ScoredHit real)) :=
  index.collectHits k
    (parts.neighbours index.graph query (index.fetch k)
      (max efSearch (index.fetch k))) ∅ []

/-- Nearest documents of a query, best first. -/
def search (ties : IterationOrder (Nat × Nat))
    (index : VectorIndex real parts.engine) (query : List single)
    (k : Nat) : Option (List (ScoredHit real)) :=
  if k = 0 ∨ index.byKey.isEmpty then
    some []
  else if index.quantizedMode then
    index.searchQuantized ties query k
  else if index.docs.length ≤ flatSearchThreshold then
    index.searchFlat query k
  else
    index.searchHnsw query k

/-! ## Live slots -/

section Live

/-- The slots of the live documents, in order. -/
def liveSlots (index : VectorIndex real parts.engine) : List Nat :=
  (List.range index.docs.length).filter
    (fun slot => decide (slot ∉ index.tombstoned))

/-- The hit a live slot gives for a query. -/
def hitAt (index : VectorIndex real parts.engine) (query : List single)
    (slot : Nat) : Option (ScoredHit real) := do
  let doc ← index.docAt slot
  let vector ← index.slotVectors[slot]?
  some ⟨doc, score parts query vector⟩

variable {index : VectorIndex real parts.engine}
variable {surviving : Std.ExtTreeMap String (FlightDocument real)}

theorem map_snd_live {α : Type} {items : List α}
    (same : items.length = index.docs.length) :
    (index.live items).map Prod.snd = index.liveSlots := by
  have slots : items.zipIdx.map Prod.snd = List.range index.docs.length := by
    rw [List.zipIdx_map_snd, same, List.range_eq_range']
  rw [live, liveSlots, ← slots, List.filter_map]
  rfl

theorem mem_liveSlots {slot : Nat} :
    slot ∈ index.liveSlots ↔
      slot < index.docs.length ∧ slot ∉ index.tombstoned := by
  simp [liveSlots]

theorem mem_liveSlots_iff_docAt {slot : Nat} :
    slot ∈ index.liveSlots ↔ ∃ doc, index.docAt slot = some doc := by
  rw [mem_liveSlots, docAt]
  constructor
  · intro alive
    rw [if_neg alive.2]
    exact ⟨_, List.getElem?_eq_getElem alive.1⟩
  · intro held
    obtain ⟨doc, held⟩ := held
    obtain ⟨found, alive⟩ := docs_of_docAt held
    exact ⟨(List.getElem?_eq_some_iff.mp found).1, alive⟩

theorem nodup_liveSlots (index : VectorIndex real parts.engine) :
    index.liveSlots.Nodup :=
  List.nodup_range.filter _

/-- A live slot's hit is its document under the score of the embedding of one of
the document's texts. -/
theorem Aligned.hitAt_eq (aligned : index.Aligned surviving)
    (query : List single) {slot : Nat} {doc : FlightDocument real}
    (held : index.docAt slot = some doc) :
    ∃ order, index.texts[slot]? = some (embeddableText order doc) ∧
      index.slotVectors[slot]? =
        some (parts.embed (embeddableText order doc)) ∧
      index.hitAt query slot =
        some ⟨doc, score parts query
          (parts.embed (embeddableText order doc))⟩ := by
  obtain ⟨order, text⟩ := aligned.texts slot doc held
  have vector := (aligned.vectors slot _ text).1
  refine ⟨order, text, vector, ?_⟩
  simp only [hitAt, held, Option.bind_eq_bind, Option.bind_some]
  rw [vector]
  rfl

private theorem Aligned.exists_hitAt (aligned : index.Aligned surviving)
    (query : List single) {slot : Nat} (alive : slot ∈ index.liveSlots) :
    ∃ hit, index.hitAt query slot = some hit := by
  obtain ⟨doc, held⟩ := mem_liveSlots_iff_docAt.mp alive
  obtain ⟨order, -, -, hit⟩ := aligned.hitAt_eq query held
  exact ⟨_, hit⟩

theorem docAt_of_hitAt {query : List single} {slot : Nat}
    {hit : ScoredHit real} (found : index.hitAt query slot = some hit) :
    index.docAt slot = some hit.doc := by
  simp only [hitAt, Option.bind_eq_bind, Option.bind_eq_some_iff] at found
  obtain ⟨doc, held, vector, -, same⟩ := found
  rw [← Option.some.inj same]
  exact held

/-- Different slots give hits of different aircraft. -/
theorem Aligned.nodup_hits (aligned : index.Aligned surviving)
    (query : List single) {slots : List Nat} (once : slots.Nodup) :
    ((slots.filterMap (index.hitAt query)).map
      (fun hit => hit.doc.icao24)).Nodup := by
  rw [List.map_filterMap]
  apply once.filterMap
  intro first second aircraft firstIs secondIs
  simp only [Option.mem_def, Option.map_eq_some_iff] at firstIs secondIs
  obtain ⟨firstHit, firstFound, rfl⟩ := firstIs
  obtain ⟨secondHit, secondFound, same⟩ := secondIs
  exact aligned.represents.slots.docId_eq (docAt_of_hitAt firstFound)
    (docAt_of_hitAt secondFound) same.symm

/-- Every hit is of a surviving document in its current version. -/
theorem Aligned.current (aligned : index.Aligned surviving)
    {query : List single} {slots : List Nat} {hit : ScoredHit real}
    (member : hit ∈ slots.filterMap (index.hitAt query)) :
    surviving[hit.doc.icao24]? = some hit.doc := by
  obtain ⟨slot, -, found⟩ := List.mem_filterMap.mp member
  exact (aligned.represents.slots.stored _ _).mpr
    ⟨rfl, slot, docAt_of_hitAt found⟩

/-- Hits of distinct surviving documents, in their current version. -/
structure Sound (surviving : Std.ExtTreeMap String (FlightDocument real))
    (hits : List (ScoredHit real)) : Prop where
  distinct : (hits.map (fun hit => hit.doc.icao24)).Nodup
  current : ∀ hit ∈ hits, surviving[hit.doc.icao24]? = some hit.doc

private theorem docAt_of_alive {slot : Nat} (alive : slot ∈ index.liveSlots) :
    index.docAt slot = index.docs[slot]? := by
  rw [docAt, if_neg (mem_liveSlots.mp alive).2]

/-- A pass that computes the hit of a live slot for every entry gives the hits
of their slots. -/
theorem Aligned.mapM_hits (aligned : index.Aligned surviving)
    (query : List single) {α : Type} (entries : List α) (slotOf : α → Nat)
    (hitOf : α → Option (ScoredHit real))
    (alive : ∀ entry ∈ entries, slotOf entry ∈ index.liveSlots)
    (agree : ∀ entry ∈ entries,
      hitOf entry = index.hitAt query (slotOf entry)) :
    entries.mapM hitOf =
      some ((entries.map slotOf).filterMap (index.hitAt query)) := by
  have defined : ∀ entry ∈ entries, ∃ hit, hitOf entry = some hit := by
    intro entry member
    rw [agree entry member]
    exact aligned.exists_hitAt query (alive entry member)
  rw [(InvertedIndex.mapM_eq_filterMap defined).1, List.filterMap_map]
  congr 1
  exact List.filterMap_congr agree

end Live

section Ranked

variable {index : VectorIndex real parts.engine}
variable {surviving : Std.ExtTreeMap String (FlightDocument real)}

/-- The exact scan ranks the hits of all live slots. -/
theorem Aligned.searchFlat_eq (aligned : index.Aligned surviving)
    (query : List single) (k : Nat) :
    index.searchFlat query k =
      some ((rankHits parts (index.liveSlots.filterMap
        (index.hitAt query))).take k) := by
  have same := aligned.represents.slotVectors
  have scanned := aligned.mapM_hits query (index.live index.slotVectors)
    Prod.snd
    (fun entry => do
      let doc ← index.docs[entry.2]?
      some (⟨doc, score parts query entry.1⟩ : ScoredHit real))
    (by
      intro entry member
      rw [← map_snd_live same]
      exact List.mem_map_of_mem member)
    (by
      intro entry member
      have alive : entry.2 ∈ index.liveSlots := by
        rw [← map_snd_live same]
        exact List.mem_map_of_mem member
      have vector : index.slotVectors[entry.2]? = some entry.1 :=
        List.mem_zipIdx_iff_getElem?.mp (List.mem_filter.mp member).1
      rw [hitAt, docAt_of_alive alive]
      simp only [Option.bind_eq_bind]
      rw [vector]
      rfl)
  rw [map_snd_live same] at scanned
  rw [searchFlat, scanned]
  rfl

/-- The text a live aircraft was embedded from. -/
def textOf (index : VectorIndex real parts.engine) (aircraft : String) :
    String :=
  (index.byKey[aircraft]?.bind (fun slot => index.texts[slot]?)).getD ""

/-- The hit of a surviving document, by the text it was embedded from. -/
def hitOf (parts : VectorParts single real) (texts : String → String)
    (query : List single) (entry : String × FlightDocument real) :
    ScoredHit real :=
  ⟨entry.2, score parts query (parts.embed (texts entry.1))⟩

/-- The slots mirror the surviving documents, garbage is bounded, and the exact
scan ranks the survivors. -/
structure Mirrors (index : VectorIndex real parts.engine)
    (surviving : Std.ExtTreeMap String (FlightDocument real))
    (texts : String → String) : Prop where
  textsLength : index.texts.length = index.docs.length
  slotVectorsLength : index.slotVectors.length = index.docs.length
  quantizedLength : index.quantized.length = index.docs.length
  keys : ∀ aircraft, aircraft ∈ index.byKey ↔ aircraft ∈ surviving
  inside : ∀ (aircraft : String) (slot : Nat),
    index.byKey[aircraft]? = some slot →
      slot < index.docs.length ∧ slot ∉ index.tombstoned
  onto : ∀ slot : Nat, slot < index.docs.length → slot ∉ index.tombstoned →
    ∃! aircraft : String, index.byKey[aircraft]? = some slot
  text : ∀ (aircraft : String) (doc : FlightDocument real),
    surviving[aircraft]? = some doc →
      ∃ order, texts aircraft = embeddableText order doc
  holds : ∀ (aircraft : String) (slot : Nat),
    index.byKey[aircraft]? = some slot →
      ∃ doc, surviving[aircraft]? = some doc ∧
        index.docs[slot]? = some doc ∧
        index.texts[slot]? = some (texts aircraft) ∧
        index.slotVectors[slot]? = some (parts.embed (texts aircraft)) ∧
        index.quantized[slot]? = some (QuantizedVector.quantize parts.floats
          (parts.embed (texts aircraft)))
  garbage : index.docs.length ≤ index.len + max 15 (index.len / 4)
  /-- The exact scan ranks one hit for each survivor. -/
  scanned : ∀ query k, ∃ ranked : List (ScoredHit real),
    ranked.Perm (surviving.toList.map (hitOf parts texts query)) ∧
      index.searchFlat query k = some (ranked.take k)
  /-- The best ones come first, if their scores are numbers. -/
  flat : ∀ query,
    AllNumbers parts (surviving.toList.map (hitOf parts texts query)) →
      ∀ k, index.searchFlat query k =
        some ((rankHits parts (surviving.toList.map
          (hitOf parts texts query))).take k)

/-- The hit of a live aircraft's slot. -/
theorem Aligned.slot_of_survivor (aligned : index.Aligned surviving)
    (query : List single) {aircraft : String} {doc : FlightDocument real}
    (survives : surviving[aircraft]? = some doc) :
    ∃ slot order, index.byKey[aircraft]? = some slot ∧
      index.docAt slot = some doc ∧
      index.textOf aircraft = embeddableText order doc ∧
      index.texts[slot]? = some (index.textOf aircraft) ∧
      index.hitAt query slot =
        some (hitOf parts index.textOf query (aircraft, doc)) := by
  obtain ⟨rfl, slot, held⟩ :=
    (aligned.represents.slots.stored _ _).mp survives
  have known := aligned.represents.slots.key_of_docAt held
  obtain ⟨order, text, vector, hit⟩ := aligned.hitAt_eq query held
  have same : index.textOf doc.icao24 = embeddableText order doc := by
    rw [textOf, known, Option.bind_some, text, Option.getD_some]
  refine ⟨slot, order, known, held, same, ?_, ?_⟩
  · rw [text, same]
  · rw [hit, hitOf, same]

/-- The hits of the live slots are those of the survivors. -/
theorem Aligned.hits_perm (aligned : index.Aligned surviving)
    (query : List single) :
    (index.liveSlots.filterMap (index.hitAt query)).Perm
      (surviving.toList.map (hitOf parts index.textOf query)) := by
  have scannedOnce := List.Nodup.of_map _
    (aligned.nodup_hits query index.nodup_liveSlots)
  have survivorsOnce : (surviving.toList.map
      (hitOf parts index.textOf query)).Nodup := by
    apply List.Nodup.of_map (fun hit : ScoredHit real => hit.doc.icao24)
    rw [List.map_map]
    have keys : surviving.toList.map ((fun hit : ScoredHit real =>
        hit.doc.icao24) ∘ hitOf parts index.textOf query) =
          surviving.toList.map Prod.fst := by
      apply List.map_congr_left
      intro entry member
      exact ((aligned.represents.slots.stored _ _).mp
        ((mem_toList ..).mp member)).1
    rw [keys]
    exact nodup_keys surviving
  rw [List.perm_ext_iff_of_nodup scannedOnce survivorsOnce]
  intro hit
  rw [List.mem_filterMap, List.mem_map]
  constructor
  · intro scanned
    obtain ⟨slot, -, found⟩ := scanned
    have survives := (aligned.represents.slots.stored _ _).mpr
      ⟨rfl, slot, docAt_of_hitAt found⟩
    obtain ⟨place, order, -, held, -, -, placed⟩ :=
      aligned.slot_of_survivor query survives
    have same := aligned.represents.slots.docId_eq held
      (docAt_of_hitAt found) rfl
    rw [same, found, Option.some.injEq] at placed
    exact ⟨_, (mem_toList ..).mpr survives, placed.symm⟩
  · intro survivor
    obtain ⟨⟨aircraft, doc⟩, member, rfl⟩ := survivor
    obtain ⟨slot, order, -, held, -, -, found⟩ :=
      aligned.slot_of_survivor query ((mem_toList ..).mp member)
    exact ⟨slot, mem_liveSlots_iff_docAt.mpr ⟨doc, held⟩, found⟩

theorem Aligned.mirrors (aligned : index.Aligned surviving) :
    index.Mirrors surviving index.textOf := by
  have slots := aligned.represents.slots
  have alive : ∀ (aircraft : String) (slot : Nat),
      index.byKey[aircraft]? = some slot →
        slot < index.docs.length ∧ slot ∉ index.tombstoned := by
    intro aircraft slot known
    obtain ⟨doc, held, -⟩ := (slots.keyed _ _).mp known
    exact mem_liveSlots.mp (mem_liveSlots_iff_docAt.mpr ⟨doc, held⟩)
  refine ⟨aligned.represents.texts, aligned.represents.slotVectors,
    aligned.represents.quantized, ?_, alive, ?_, ?_, ?_, ?_, ?_, ?_⟩
  · intro aircraft
    rw [Std.ExtTreeMap.mem_iff_isSome_getElem?, slots.byKey_isSome,
      ← Std.ExtTreeMap.mem_iff_isSome_getElem?]
  · intro slot inside notBuried
    obtain ⟨doc, held⟩ :=
      mem_liveSlots_iff_docAt.mp (mem_liveSlots.mpr ⟨inside, notBuried⟩)
    refine ⟨doc.icao24, slots.key_of_docAt held, ?_⟩
    intro aircraft known
    obtain ⟨other, otherHeld, rfl⟩ := (slots.keyed _ _).mp known
    rw [held, Option.some.injEq] at otherHeld
    rw [otherHeld]
  · intro aircraft doc survives
    obtain ⟨-, order, -, -, text, -⟩ := aligned.slot_of_survivor [] survives
    exact ⟨order, text⟩
  · intro aircraft slot known
    obtain ⟨doc, held, rfl⟩ := (slots.keyed _ _).mp known
    have survives := (slots.stored doc.icao24 doc).mpr ⟨rfl, slot, held⟩
    obtain ⟨place, order, placed, -, -, text, -⟩ :=
      aligned.slot_of_survivor [] survives
    rw [known, Option.some.injEq] at placed
    subst placed
    obtain ⟨vector, quantized⟩ := aligned.vectors slot _ text
    exact ⟨doc, survives, (docs_of_docAt held).1, text, vector, quantized⟩
  · have balanced := aligned.balanced
    have few := aligned.few
    rw [len]
    omega
  · intro query k
    exact ⟨_, (sortBy_perm _ _).trans (aligned.hits_perm query),
      aligned.searchFlat_eq query k⟩
  · intro query numbers k
    have once := (((aligned.hits_perm query).map _).nodup_iff).mp
      (aligned.nodup_hits query index.nodup_liveSlots)
    rw [aligned.searchFlat_eq query k,
      rankHits_eq_of_perm numbers (aligned.hits_perm query).symm once]

end Ranked

end VectorIndex

end AetherEngine.Shard
