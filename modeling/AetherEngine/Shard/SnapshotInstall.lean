import AetherEngine.Shard.VectorSearch

/-!
# Installing a snapshot

A store that installs a snapshot starts both indexes anew and fills them with
the documents of the snapshot.  The new vector index has the embedder of the old
one, but not its search mode: the store answers like a new store of the same
configuration exactly if it did not run the quantized pipeline.

The passes over the text fields of the documents are the same in both fills.
-/

namespace AetherEngine.Shard

open AetherEngine.Common
open AetherEngine.Ranking

variable {single real : Type}

namespace VectorIndex

variable {engine : VectorEngine} {index : VectorIndex real engine}
variable {surviving : Std.ExtTreeMap String (FlightDocument real)}

theorem Represents.insert_quantizedMode (represents : index.Represents surviving)
    {order : IterationOrder String} {doc : FlightDocument real}
    {after : VectorIndex real engine}
    (inserted : index.insert order doc = some after) :
    after.quantizedMode = index.quantizedMode := by
  refine represents.insert_induction
    (fun after => after.quantizedMode = index.quantizedMode) inserted ?_ ?_ rfl
  · intro slot _
    rfl
  · intro slot _
    rfl

/-- Filling the vector side of a store does not switch its search mode. -/
theorem Aligned.fill (aligned : index.Aligned surviving)
    {orders : Nat → IterationOrder String}
    {state : (vectorSide real engine orders).State}
    (held : state.1 = some index) (docs : List (FlightDocument real)) :
    ∃ after, (docs.foldl (vectorSide real engine orders).insert state).1 =
        some after ∧
      after.quantizedMode = index.quantizedMode := by
  induction docs generalizing index surviving state with
  | nil =>
      exact ⟨index, held, rfl⟩
  | cons doc rest inductionHypothesis =>
      obtain ⟨next, inserted, nextAligned⟩ :=
        aligned.insert (orders state.2) doc
      have step : ((vectorSide real engine orders).insert state doc).1 =
          some next := by
        simp only [vectorSide, held, Option.bind_some, inserted]
      obtain ⟨after, filled, sameMode⟩ :=
        inductionHypothesis nextAligned step
      exact ⟨after, filled, sameMode.trans
        (aligned.represents.insert_quantizedMode inserted)⟩

end VectorIndex

namespace ShardStore

section Modes

variable {engine : VectorEngine} {orders : Nat → IterationOrder String}

/-- Run vector search on the two-tier pipeline, or not. -/
def withQuantized (store : ShardStore real (vectorSide real engine orders))
    (on : Bool) : ShardStore real (vectorSide real engine orders) :=
  { store with
    vector := (store.vector.1.map (fun index => index.setQuantized on),
      store.vector.2) }

/-- Whether vector search runs the two-tier pipeline. -/
def quantizedMode (store : ShardStore real (vectorSide real engine orders)) :
    Option Bool :=
  store.vector.1.map VectorIndex.quantizedMode

/-- A new store, whose passes over text fields are numbered on from a given
one. -/
def startAt (number : Nat) : ShardStore real (vectorSide real engine orders) where
  keyword := .new
  vector := (some .new, number)

end Modes

variable {parts : VectorParts single real}
variable {orders : Nat → IterationOrder String}

/-- Vector search for an embedded query. -/
def vectorSearch [LinearOrder real] (ties : IterationOrder (Nat × Nat))
    (store : ShardStore real (vectorSide real parts.engine orders))
    (query : List single) (k : Nat) : Option (List (ScoredHit real)) :=
  store.vector.1.bind (fun index => index.search ties query k)

/-- Two stores answer every keyword search and every vector search alike. -/
structure AnswersLike [LinearOrder real] (rules : TextRules)
    (arith : Arithmetic real)
    (store other : ShardStore real (vectorSide real parts.engine orders)) :
    Prop where
  keyword : ∀ order order' query limit,
    store.search rules arith order query limit =
      other.search rules arith order' query limit
  vector : ∀ ties query k,
    store.vectorSearch ties query k = other.vectorSearch ties query k

/-- Keyword answers are those of the documents held. -/
theorem search_eq_of_holds [LinearOrder real] {vectors : VectorSide real}
    {rules : TextRules} {store other : ShardStore real vectors}
    {surviving : Std.ExtTreeMap String (FlightDocument real)}
    (holds : store.Holds rules surviving)
    (otherHolds : other.Holds rules surviving) (arith : Arithmetic real)
    (order order' : IterationOrder (Nat × real)) (query : String)
    (limit : Nat) :
    store.search rules arith order query limit =
      other.search rules arith order' query limit := by
  rw [ShardStore.search, InvertedIndex.Represents.search holds,
    ShardStore.search, InvertedIndex.Represents.search otherHolds]

/-- After a snapshot is installed, a store answers like a new store with the
same embedder and search mode that was given the documents, and stays in its
mode, exactly if it did not run the quantized pipeline. -/
theorem replaceAll_like_new_iff [LinearOrder real] (rules : TextRules)
    (arith : Arithmetic real) (parts : VectorParts single real)
    (orders : Nat → IterationOrder String) (passes passes' : Nat → Passes)
    (keyword : InvertedIndex real) (index : VectorIndex real parts.engine)
    (number : Nat) (docs : List (FlightDocument real)) :
    ∃ after reference : ShardStore real (vectorSide real parts.engine orders),
      replaceAll rules passes ⟨keyword, (some index, number)⟩ docs =
          some after ∧
        insertAll rules passes'
            ((startAt number).withQuantized index.quantizedMode) docs =
          some reference ∧
        (after.AnswersLike rules arith reference ∧
            after.quantizedMode = some index.quantizedMode ↔
          index.quantizedMode = false) := by
  obtain ⟨after, replaced, afterHolds⟩ := holds_replaceAll rules passes
    (⟨keyword, (some index, number)⟩ :
      ShardStore real (vectorSide real parts.engine orders)) docs
  have empty : ((startAt number).withQuantized index.quantizedMode :
      ShardStore real (vectorSide real parts.engine orders)).Holds rules ∅ :=
    InvertedIndex.represents_new rules
  obtain ⟨reference, built, referenceHolds⟩ := empty.insertAll passes' docs
  have afterVector := vector_insertAll passes docs replaced
  have referenceVector := vector_insertAll passes' docs built
  -- whatever the mode was, the fresh index starts with the quantized one off
  have afterMode : after.quantizedMode = some false := by
    obtain ⟨filled, filledIs, sameMode⟩ :=
      (VectorIndex.aligned_empty false :
        VectorIndex.Aligned (.new : VectorIndex real parts.engine) ∅).fill
          (show ((vectorSide real parts.engine orders).restart
            (some index, number)).1 = some .new from rfl) docs
    rw [quantizedMode, afterVector, filledIs, Option.map_some, sameMode]
  refine ⟨after, reference, replaced, built, ?_⟩
  rw [afterMode, Option.some.injEq]
  constructor
  · intro faithful
    exact faithful.2.symm
  · intro off
    rw [off] at referenceVector
    have sameVector : after.vector = reference.vector :=
      afterVector.trans referenceVector.symm
    refine ⟨⟨?_, ?_⟩, off.symm⟩
    · exact search_eq_of_holds afterHolds referenceHolds arith
    · intro ties query k
      rw [vectorSearch, vectorSearch, sameVector]

/-- One text is embedded far out, in another quadrant than the query. -/
def embedSkewed (text : String) : List Int :=
  if text = "e   " then [10, -1, -1] else [1, 1, 1]

/-- Five aircraft, the last of which is embedded far out. -/
def skewedDocs : List (FlightDocument Int) :=
  ["a", "b", "c", "d", "e"].map (fun name =>
    { (default : FlightDocument Int) with icao24 := name, callsign := name })

abbrev skewedSide : VectorSide Int :=
  vectorSide Int (scanParts embedSkewed).engine (fun _ => .asStored)

/-- A new store in a search mode. -/
def skewedStore (mode : Bool) : ShardStore Int skewedSide :=
  (startAt 0).withQuantized mode

def plainText : TextRules where
  isAlphanumeric := Char.isAlphanum
  toLowercase text := text

private theorem nearest_skewed :
    ((skewedDocs.foldl skewedSide.insert (skewedStore true).vector).1.bind
        (fun index => index.search .asStored [1, 1, 1] 1)).map
          (fun hits => hits.map (fun hit => hit.doc.icao24)) = some ["a"] ∧
      ((skewedDocs.foldl skewedSide.insert (skewedStore false).vector).1.bind
        (fun index => index.search .asStored [1, 1, 1] 1)).map
          (fun hits => hits.map (fun hit => hit.doc.icao24)) = some ["e"] := by
  decide +kernel

/-- A store that runs the quantized pipeline leaves it when it installs a
snapshot, and finds another nearest aircraft. -/
theorem replaceAll_leaves_quantized_mode :
    ∃ after reference : ShardStore Int skewedSide,
      replaceAll plainText (fun _ => ⟨.asStored, .asStored⟩) (skewedStore true)
          skewedDocs = some after ∧
        insertAll plainText (fun _ => ⟨.asStored, .asStored⟩)
          (skewedStore true) skewedDocs = some reference ∧
        vectorSearch .asStored after [1, 1, 1] 1 ≠
          vectorSearch .asStored reference [1, 1, 1] 1 := by
  obtain ⟨after, replaced, -⟩ := holds_replaceAll plainText
    (fun _ => ⟨.asStored, .asStored⟩) (skewedStore true) skewedDocs
  have empty : (skewedStore true).Holds plainText ∅ :=
    InvertedIndex.represents_new plainText
  obtain ⟨reference, built, -⟩ :=
    empty.insertAll (fun _ => ⟨.asStored, .asStored⟩) skewedDocs
  have afterVector : after.vector =
      skewedDocs.foldl skewedSide.insert (skewedStore false).vector :=
    vector_insertAll _ skewedDocs replaced
  have referenceVector := vector_insertAll _ skewedDocs built
  refine ⟨after, reference, replaced, built, ?_⟩
  intro same
  rw [vectorSearch, vectorSearch, afterVector, referenceVector] at same
  have names := nearest_skewed.2.symm.trans
    ((congrArg (Option.map (fun hits =>
      hits.map (fun hit => hit.doc.icao24))) same).trans nearest_skewed.1)
  revert names
  decide

end ShardStore

end AetherEngine.Shard
