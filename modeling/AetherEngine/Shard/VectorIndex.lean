import AetherEngine.Shard.Store
import Mathlib.Data.Finset.Basic
import Mathlib.Data.Finset.Card

/-!
# The vector index of a shard

Documents are kept in slots, and the graph's points carry slot numbers.  The
graph cannot delete a point: a removed aircraft's slot is tombstoned, and once
there are enough tombstones every structure is rebuilt from the live documents,
which renumbers the slots.

Embedding, quantizing and the graph are parameters.  Whatever they do, the
index holds the documents that were inserted and not removed, so it holds the
documents of the keyword index beside it.
-/

namespace AetherEngine.Shard

open AetherEngine.Common
open AetherEngine.Ranking
open AetherEngine.Tables

variable {real : Type}

/-! ## The index -/

/-- The embedder, the quantizer and the neighbour graph. -/
structure VectorEngine where
  Vector : Type
  Quantized : Type
  Graph : Type
  embed : String → Vector
  quantize : Vector → Quantized
  newGraph : Graph
  insertPoint : Graph → Vector → Nat → Graph

structure VectorIndex (real : Type) (engine : VectorEngine) where
  docs : List (FlightDocument real)
  /-- The text each slot was embedded from. -/
  texts : List String
  slotVectors : List engine.Vector
  quantized : List engine.Quantized
  quantizedMode : Bool
  /-- The slot of every aircraft. -/
  byKey : Std.ExtTreeMap String Nat
  tombstoned : Finset Nat
  vectorsTotal : Nat
  graph : engine.Graph

def rebuildMinTombstones : Nat :=
  16

/-- The text a document is embedded from; the values of its text fields come
in the order of one pass over them. -/
def embeddableText (order : IterationOrder String)
    (doc : FlightDocument real) : String :=
  (order.arrange (doc.text.toList.map Prod.snd)).foldl
    (fun text value => text ++ " " ++ value)
    (doc.callsign ++ " " ++ doc.origin ++ " " ++ doc.destination ++ " " ++
      doc.aircraftType)

namespace VectorIndex

variable {engine : VectorEngine}

def new : VectorIndex real engine where
  docs := []
  texts := []
  slotVectors := []
  quantized := []
  quantizedMode := false
  byKey := ∅
  tombstoned := ∅
  vectorsTotal := 0
  graph := engine.newGraph

/-- Number of distinct live documents. -/
def len (index : VectorIndex real engine) : Nat :=
  index.byKey.size

/-- A re-observed aircraft replaces its stored document; a changed text gets a
new vector under the same slot. -/
def insertKnown (order : IterationOrder String)
    (index : VectorIndex real engine) (slot : Nat)
    (doc : FlightDocument real) : Option (VectorIndex real engine) := do
  let text := embeddableText order doc
  let docs ← assign index.docs slot doc
  let current ← index.texts[slot]?
  if current = text then
    some { index with docs := docs }
  else do
    let vector := engine.embed text
    let quantized ← assign index.quantized slot (engine.quantize vector)
    let slotVectors ← assign index.slotVectors slot vector
    let texts ← assign index.texts slot text
    some
      { index with
        docs := docs
        texts := texts
        slotVectors := slotVectors
        quantized := quantized
        vectorsTotal := index.vectorsTotal + 1
        graph := engine.insertPoint index.graph vector slot }

/-- A new aircraft takes the next slot. -/
def insertNew (order : IterationOrder String)
    (index : VectorIndex real engine) (doc : FlightDocument real) :
    VectorIndex real engine :=
  let text := embeddableText order doc
  let slot := index.docs.length
  let vector := engine.embed text
  { index with
    docs := index.docs ++ [doc]
    texts := index.texts ++ [text]
    slotVectors := index.slotVectors ++ [vector]
    quantized := index.quantized ++ [engine.quantize vector]
    byKey := index.byKey.insert doc.icao24 slot
    vectorsTotal := index.vectorsTotal + 1
    graph := engine.insertPoint index.graph vector slot }

/-- Upsert one document by `icao24`. -/
def insert (order : IterationOrder String) (index : VectorIndex real engine)
    (doc : FlightDocument real) : Option (VectorIndex real engine) :=
  match index.byKey[doc.icao24]? with
  | some slot => index.insertKnown order slot doc
  | none => some (index.insertNew order doc)

/-- Insert documents in turn, each with a pass of its own. -/
def insertAll :
    (Nat → IterationOrder String) → VectorIndex real engine →
      List (FlightDocument real) → Option (VectorIndex real engine)
  | _, index, [] => some index
  | orders, index, doc :: rest => do
      let index ← index.insert (orders 0) doc
      insertAll (fun number => orders (number + 1)) index rest

/-- The documents that are not tombstoned, in slot order. -/
def liveDocuments (index : VectorIndex real engine) :
    List (FlightDocument real) :=
  (index.docs.zipIdx.filter fun entry =>
    decide (entry.2 ∉ index.tombstoned)).map Prod.fst

/-- Rebuild every structure from the live documents. -/
def rebuild (orders : Nat → IterationOrder String)
    (index : VectorIndex real engine) : Option (VectorIndex real engine) :=
  insertAll orders { new with quantizedMode := index.quantizedMode }
    index.liveDocuments

/-- Enough tombstones, and at least a quarter of the live documents. -/
def shouldRebuild (index : VectorIndex real engine) : Prop :=
  rebuildMinTombstones ≤ index.tombstoned.card ∧
    max index.byKey.size 1 ≤ 4 * index.tombstoned.card

instance (index : VectorIndex real engine) : Decidable index.shouldRebuild :=
  inferInstanceAs (Decidable (_ ∧ _))

/-- Tombstone one aircraft's slot; tells whether it was present. -/
def remove (orders : Nat → IterationOrder String)
    (index : VectorIndex real engine) (icao24 : String) :
    Option (VectorIndex real engine × Bool) :=
  match index.byKey[icao24]? with
  | none => some (index, false)
  | some slot =>
      let index :=
        { index with
          byKey := index.byKey.erase icao24
          tombstoned := Insert.insert slot index.tombstoned }
      if index.shouldRebuild then
        (index.rebuild orders).map fun rebuilt => (rebuilt, true)
      else
        some (index, true)

/-- The index with a new vector in a slot. -/
def reembed (index : VectorIndex real engine) (slot : Nat)
    (doc : FlightDocument real) (text : String) : VectorIndex real engine :=
  { index with
    docs := index.docs.set slot doc
    texts := index.texts.set slot text
    slotVectors := index.slotVectors.set slot (engine.embed text)
    quantized :=
      index.quantized.set slot (engine.quantize (engine.embed text))
    vectorsTotal := index.vectorsTotal + 1
    graph := engine.insertPoint index.graph (engine.embed text) slot }

/-- The index with the slot of an aircraft tombstoned. -/
def bury (index : VectorIndex real engine) (icao24 : String) (slot : Nat) :
    VectorIndex real engine :=
  { index with
    byKey := index.byKey.erase icao24
    tombstoned := Insert.insert slot index.tombstoned }

/-- The document in a slot, if the slot is live. -/
def docAt (index : VectorIndex real engine) (slot : Nat) :
    Option (FlightDocument real) :=
  if slot ∈ index.tombstoned then none else index.docs[slot]?

/-- The document of an aircraft. -/
def find (index : VectorIndex real engine) (icao24 : String) :
    Option (FlightDocument real) := do
  let slot ← index.byKey[icao24]?
  index.docs[slot]?

end VectorIndex

/-- The vector index as the store uses it.  A panic leaves no index behind; the
passes over text fields are numbered through. -/
def vectorSide (real : Type) (engine : VectorEngine)
    (orders : Nat → IterationOrder String) : VectorSide real where
  State := Option (VectorIndex real engine) × Nat
  new := (some .new, 0)
  restart state := (state.1.map fun _ => .new, state.2)
  insert state doc :=
    (state.1.bind fun index => index.insert (orders state.2) doc, state.2 + 1)
  remove state icao24 :=
    let removed := state.1.bind fun index =>
      index.remove (fun number => orders (state.2 + number)) icao24
    ((removed.map Prod.fst,
        state.2 + (state.1.map fun index => index.docs.length).getD 0),
      (removed.map Prod.snd).getD false)

/-! ## What the index holds -/

namespace VectorIndex

variable {engine : VectorEngine}

/-- The index holds exactly the surviving documents, and its lists have one
item for each slot. -/
structure Represents (index : VectorIndex real engine)
    (surviving : Std.ExtTreeMap String (FlightDocument real)) : Prop where
  slots : Slots index.docAt index.byKey surviving
  texts : index.texts.length = index.docs.length
  slotVectors : index.slotVectors.length = index.docs.length
  quantized : index.quantized.length = index.docs.length
  buried : ∀ slot ∈ index.tombstoned, slot < index.docs.length

theorem represents_empty (mode : Bool) :
    Represents ({ new with quantizedMode := mode } : VectorIndex real engine)
      ∅ where
  slots := ⟨by simp [new, docAt], by simp [new, docAt]⟩
  texts := rfl
  slotVectors := rfl
  quantized := rfl
  buried := by simp [new]

variable {index : VectorIndex real engine}
variable {surviving : Std.ExtTreeMap String (FlightDocument real)}

theorem docs_of_docAt {slot : Nat} {doc : FlightDocument real}
    (held : index.docAt slot = some doc) :
    index.docs[slot]? = some doc ∧ slot ∉ index.tombstoned := by
  rw [docAt] at held
  split at held
  · cases held
  · exact ⟨held, by assumption⟩

theorem docAt_of_set {after : VectorIndex real engine} {slot : Nat}
    {doc : FlightDocument real} (inside : slot < index.docs.length)
    (alive : slot ∉ index.tombstoned)
    (changed : after.docs = index.docs.set slot doc)
    (sameTombs : after.tombstoned = index.tombstoned) :
    after.docAt = Function.update index.docAt slot (some doc) := by
  funext other
  rw [docAt, changed, sameTombs]
  by_cases same : other = slot
  · subst same
    rw [Function.update_self, if_neg alive, List.getElem?_set_self inside]
  · rw [Function.update_of_ne same, docAt,
      List.getElem?_set_ne (fun equal => same equal.symm)]

theorem docAt_of_push {after : VectorIndex real engine}
    {doc : FlightDocument real} (fresh : index.docs.length ∉ index.tombstoned)
    (changed : after.docs = index.docs ++ [doc])
    (sameTombs : after.tombstoned = index.tombstoned) :
    after.docAt =
      Function.update index.docAt index.docs.length (some doc) := by
  funext other
  rw [docAt, changed, sameTombs]
  by_cases same : other = index.docs.length
  · subst same
    rw [Function.update_self, if_neg fresh, List.getElem?_concat_length]
  · rw [Function.update_of_ne same, docAt, getElem?_concat_of_ne same]

/-- What changes when the document of a live slot does. -/
theorem Represents.replace (represents : index.Represents surviving)
    {after : VectorIndex real engine} {slot : Nat} {doc : FlightDocument real}
    (known : index.byKey[doc.icao24]? = some slot)
    (changed : after.docs = index.docs.set slot doc)
    (sameTombs : after.tombstoned = index.tombstoned)
    (sameKeys : after.byKey = index.byKey)
    (texts : after.texts.length = index.texts.length)
    (slotVectors : after.slotVectors.length = index.slotVectors.length)
    (quantized : after.quantized.length = index.quantized.length) :
    after.Represents (surviving.insert doc.icao24 doc) := by
  obtain ⟨old, held, oldIs⟩ := (represents.slots.keyed _ _).mp known
  obtain ⟨found, alive⟩ := docs_of_docAt held
  have inside : slot < index.docs.length :=
    (List.getElem?_eq_some_iff.mp found).1
  have sameLength : after.docs.length = index.docs.length := by
    rw [changed, List.length_set]
  refine ⟨?_, ?_, ?_, ?_, ?_⟩
  · rw [docAt_of_set inside alive changed sameTombs, sameKeys]
    exact represents.slots.occupyKnown known
  · rw [texts, sameLength, represents.texts]
  · rw [slotVectors, sameLength, represents.slotVectors]
  · rw [quantized, sameLength, represents.quantized]
  · rw [sameTombs, sameLength]
    exact represents.buried

theorem assign_of_lt {α : Type} {items : List α} {slot : Nat}
    (inside : slot < items.length) (value : α) :
    assign items slot value = some (items.set slot value) := by
  rw [assign, if_pos inside]

theorem Represents.slot_lt (represents : index.Represents surviving)
    {aircraft : String} {slot : Nat}
    (known : index.byKey[aircraft]? = some slot) : slot < index.docs.length := by
  obtain ⟨doc, held, -⟩ := (represents.slots.keyed _ _).mp known
  exact (List.getElem?_eq_some_iff.mp (docs_of_docAt held).1).1

/-- What an insertion does: a known aircraft's document is replaced, with a new
vector when its text changed, and a new aircraft takes the next slot. -/
theorem Represents.insert_cases (represents : index.Represents surviving)
    (order : IterationOrder String) (doc : FlightDocument real) :
    (∃ slot, index.byKey[doc.icao24]? = some slot ∧
        index.texts[slot]? = some (embeddableText order doc) ∧
        index.insert order doc =
          some { index with docs := index.docs.set slot doc }) ∨
      (∃ slot text, index.byKey[doc.icao24]? = some slot ∧
        index.texts[slot]? = some text ∧ text ≠ embeddableText order doc ∧
        index.insert order doc =
          some (index.reembed slot doc (embeddableText order doc))) ∨
      (index.byKey[doc.icao24]? = none ∧
        index.insert order doc = some (index.insertNew order doc)) := by
  cases known : index.byKey[doc.icao24]? with
  | none =>
      exact Or.inr (Or.inr ⟨rfl, by simp only [VectorIndex.insert, known]⟩)
  | some slot =>
      have inside := represents.slot_lt known
      have textsInside : slot < index.texts.length :=
        represents.texts ▸ inside
      have vectorsInside : slot < index.slotVectors.length :=
        represents.slotVectors ▸ inside
      have quantizedInside : slot < index.quantized.length :=
        represents.quantized ▸ inside
      have current := List.getElem?_eq_getElem textsInside
      by_cases sameText : index.texts[slot] = embeddableText order doc
      · refine Or.inl ⟨slot, rfl, by rw [current, sameText], ?_⟩
        simp only [VectorIndex.insert, known, VectorIndex.insertKnown,
          assign_of_lt inside, current, Option.bind_eq_bind, Option.bind_some,
          if_pos sameText]
      · refine Or.inr (Or.inl ⟨slot, _, rfl, current, sameText, ?_⟩)
        simp only [VectorIndex.insert, known, VectorIndex.insertKnown,
          assign_of_lt inside, current, assign_of_lt quantizedInside,
          assign_of_lt vectorsInside, assign_of_lt textsInside,
          Option.bind_eq_bind, Option.bind_some, if_neg sameText]
        rfl

/-- What holds in each case holds after an insertion. -/
theorem Represents.insert_induction
    (property : VectorIndex real engine → Prop)
    (represents : index.Represents surviving)
    {order : IterationOrder String} {doc : FlightDocument real}
    {after : VectorIndex real engine}
    (inserted : index.insert order doc = some after)
    (replace : ∀ slot, index.byKey[doc.icao24]? = some slot →
      property { index with docs := index.docs.set slot doc })
    (reembed : ∀ slot, index.byKey[doc.icao24]? = some slot →
      property (index.reembed slot doc (embeddableText order doc)))
    (insertNew : property (index.insertNew order doc)) : property after := by
  rcases represents.insert_cases order doc with
    ⟨slot, known, -, done⟩ | ⟨slot, text, known, -, -, done⟩ | ⟨-, done⟩
  · rw [inserted, Option.some.injEq] at done
    exact done ▸ replace slot known
  · rw [inserted, Option.some.injEq] at done
    exact done ▸ reembed slot known
  · rw [inserted, Option.some.injEq] at done
    exact done ▸ insertNew

theorem Represents.insertNew (represents : index.Represents surviving)
    (order : IterationOrder String) {doc : FlightDocument real}
    (unknown : index.byKey[doc.icao24]? = none) :
    (index.insertNew order doc).Represents
      (surviving.insert doc.icao24 doc) := by
  have fresh : index.docs.length ∉ index.tombstoned := fun isBuried =>
    Nat.lt_irrefl _ (represents.buried _ isBuried)
  have vacant : index.docAt index.docs.length = none := by
    rw [docAt, if_neg fresh, List.getElem?_eq_none (Nat.le_refl _)]
  have pushed : (index.insertNew order doc).docAt =
      Function.update index.docAt index.docs.length (some doc) :=
    docAt_of_push fresh rfl rfl
  refine ⟨?_, ?_, ?_, ?_, ?_⟩
  · rw [pushed]
    refine represents.slots.occupy ?_ ?_
    · intro other slot held same
      have key := represents.slots.key_of_docAt held
      rw [same, unknown] at key
      cases key
    · intro other held
      rw [vacant] at held
      cases held
  · simp only [VectorIndex.insertNew, List.length_append, List.length_singleton,
      represents.texts]
  · simp only [VectorIndex.insertNew, List.length_append, List.length_singleton,
      represents.slotVectors]
  · simp only [VectorIndex.insertNew, List.length_append, List.length_singleton,
      represents.quantized]
  · intro slot isBuried
    have inside := represents.buried slot isBuried
    simp only [VectorIndex.insertNew, List.length_append]
    omega

/-- Inserting never panics and replaces or adds the aircraft's document. -/
theorem Represents.insert (represents : index.Represents surviving)
    (order : IterationOrder String) (doc : FlightDocument real) :
    ∃ after, index.insert order doc = some after ∧
      after.Represents (surviving.insert doc.icao24 doc) := by
  rcases represents.insert_cases order doc with
    ⟨slot, known, -, inserted⟩ | ⟨slot, text, known, -, -, inserted⟩ |
      ⟨unknown, inserted⟩
  · exact ⟨_, inserted, represents.replace known rfl rfl rfl rfl rfl rfl⟩
  · exact ⟨_, inserted, represents.replace known rfl rfl rfl
      (List.length_set ..) (List.length_set ..) (List.length_set ..)⟩
  · exact ⟨_, inserted, represents.insertNew order unknown⟩

/-- What holds of an index for some documents holds after every insertion. -/
def InsertKeeps
    (holds : VectorIndex real engine →
      Std.ExtTreeMap String (FlightDocument real) → Prop) : Prop :=
  ∀ index surviving order doc, holds index surviving →
    ∃ after, index.insert order doc = some after ∧
      holds after (surviving.insert doc.icao24 doc)

theorem InsertKeeps.insertAll
    {holds : VectorIndex real engine →
      Std.ExtTreeMap String (FlightDocument real) → Prop}
    (keeps : InsertKeeps holds) (start : holds index surviving)
    (orders : Nat → IterationOrder String)
    (docs : List (FlightDocument real)) :
    ∃ after, VectorIndex.insertAll orders index docs = some after ∧
      holds after
        (docs.foldl (fun found doc => found.insert doc.icao24 doc)
          surviving) := by
  induction docs generalizing orders index surviving with
  | nil =>
      exact ⟨index, rfl, start⟩
  | cons doc rest inductionHypothesis =>
      obtain ⟨next, inserted, nextHolds⟩ :=
        keeps index surviving (orders 0) doc start
      obtain ⟨after, finished, afterHolds⟩ :=
        inductionHypothesis nextHolds (fun number => orders (number + 1))
      refine ⟨after, ?_, afterHolds⟩
      rw [VectorIndex.insertAll, inserted]
      exact finished

/-! ## Removing and rebuilding -/

theorem mem_liveDocuments {doc : FlightDocument real} :
    doc ∈ index.liveDocuments ↔ ∃ slot, index.docAt slot = some doc := by
  simp only [liveDocuments, List.mem_map, List.mem_filter,
    decide_eq_true_eq, Prod.exists, exists_and_right, exists_eq_right,
    List.mem_zipIdx_iff_getElem?, docAt]
  constructor
  · intro finding
    rcases finding with ⟨slot, found, alive⟩
    exact ⟨slot, by rw [if_neg alive]; exact found⟩
  · intro holding
    rcases holding with ⟨slot, held⟩
    obtain ⟨found, alive⟩ := docs_of_docAt held
    exact ⟨slot, found, alive⟩

/-- No aircraft has two live slots. -/
theorem Represents.liveDocuments_once (represents : index.Represents surviving) :
    (index.liveDocuments.map FlightDocument.icao24).Nodup := by
  have slotsOnce : (index.docs.zipIdx.filter fun entry =>
      decide (entry.2 ∉ index.tombstoned)).Nodup :=
    (List.Nodup.of_map Prod.snd (by
      rw [List.zipIdx_map_snd]
      exact List.nodup_range')).filter _
  rw [liveDocuments, List.map_map]
  refine List.Nodup.map_on ?_ slotsOnce
  have heldAt : ∀ entry ∈ index.docs.zipIdx.filter fun entry =>
      decide (entry.2 ∉ index.tombstoned),
        index.docAt entry.2 = some entry.1 := by
    intro entry member
    obtain ⟨listed, alive⟩ := List.mem_filter.mp member
    rw [decide_eq_true_eq] at alive
    rw [docAt, if_neg alive]
    exact List.mem_zipIdx_iff_getElem?.mp listed
  intro first firstMember second secondMember sameKey
  have firstHeld := heldAt first firstMember
  have secondHeld := heldAt second secondMember
  have sameSlot := represents.slots.docId_eq firstHeld secondHeld sameKey
  rw [sameSlot, secondHeld, Option.some.injEq] at firstHeld
  exact Prod.ext firstHeld.symm sameSlot

/-- The live documents are the surviving ones. -/
theorem Represents.foldl_liveDocuments
    (represents : index.Represents surviving) :
    index.liveDocuments.foldl (fun found doc => found.insert doc.icao24 doc)
      (∅ : Std.ExtTreeMap String (FlightDocument real)) = surviving := by
  apply Std.ExtTreeMap.ext_getElem?
  intro aircraft
  apply Option.ext
  intro doc
  rw [ShardStore.foldl_insert_getElem? represents.liveDocuments_once,
    mem_liveDocuments, represents.slots.stored, and_comm]

/-- Rebuilding keeps the live documents under new slot numbers. -/
theorem InsertKeeps.rebuild
    {holds : VectorIndex real engine →
      Std.ExtTreeMap String (FlightDocument real) → Prop}
    (keeps : InsertKeeps holds)
    (empty : ∀ mode, holds { new with quantizedMode := mode } ∅)
    (represents : index.Represents surviving)
    (orders : Nat → IterationOrder String) :
    ∃ after, index.rebuild orders = some after ∧ holds after surviving := by
  obtain ⟨after, inserted, afterHolds⟩ :=
    keeps.insertAll (empty index.quantizedMode) orders index.liveDocuments
  rw [represents.foldl_liveDocuments] at afterHolds
  exact ⟨after, inserted, afterHolds⟩

theorem Represents.rebuild (represents : index.Represents surviving)
    (orders : Nat → IterationOrder String) :
    ∃ after, index.rebuild orders = some after ∧
      after.Represents surviving :=
  InsertKeeps.rebuild
    (fun _ _ order doc represents => represents.insert order doc)
    represents_empty represents orders

/-- A tombstone hides the document of its slot. -/
theorem docAt_bury (index : VectorIndex real engine) (aircraft : String)
    (slot : Nat) :
    (index.bury aircraft slot).docAt =
      Function.update index.docAt slot none := by
  funext other
  have buried : other ∈ (index.bury aircraft slot).tombstoned ↔
      other = slot ∨ other ∈ index.tombstoned :=
    Finset.mem_insert
  rw [docAt]
  simp only [buried]
  by_cases same : other = slot
  · rw [same, Function.update_self, if_pos (Or.inl rfl)]
  · simp only [same, false_or]
    rw [Function.update_of_ne same]
    rfl

theorem Represents.bury (represents : index.Represents surviving)
    {aircraft : String} {slot : Nat}
    (known : index.byKey[aircraft]? = some slot) :
    (index.bury aircraft slot).Represents (surviving.erase aircraft) := by
  obtain ⟨doc, held, rfl⟩ := (represents.slots.keyed _ _).mp known
  refine ⟨?_, represents.texts, represents.slotVectors,
    represents.quantized, ?_⟩
  · rw [docAt_bury]
    exact represents.slots.vacate held
  · intro other isBuried
    rcases Finset.mem_insert.mp isBuried with rfl | earlier
    · exact represents.slot_lt known
    · exact represents.buried other earlier

/-- What a removal does: nothing to an unknown aircraft; a known one's slot is
tombstoned, and everything is rebuilt when that makes enough tombstones. -/
theorem remove_cases (index : VectorIndex real engine)
    (orders : Nat → IterationOrder String) (aircraft : String) :
    (index.byKey[aircraft]? = none ∧
        index.remove orders aircraft = some (index, false)) ∨
      ∃ slot, index.byKey[aircraft]? = some slot ∧
        ((¬ (index.bury aircraft slot).shouldRebuild ∧
            index.remove orders aircraft =
              some (index.bury aircraft slot, true)) ∨
          ((index.bury aircraft slot).shouldRebuild ∧
            index.remove orders aircraft =
              ((index.bury aircraft slot).rebuild orders).map
                fun rebuilt => (rebuilt, true))) := by
  cases known : index.byKey[aircraft]? with
  | none =>
      exact Or.inl ⟨rfl, by simp only [VectorIndex.remove, known]⟩
  | some slot =>
      refine Or.inr ⟨slot, rfl, ?_⟩
      by_cases many : (index.bury aircraft slot).shouldRebuild
      · refine Or.inr ⟨many, ?_⟩
        simp only [VectorIndex.remove, known]
        exact if_pos many
      · refine Or.inl ⟨many, ?_⟩
        simp only [VectorIndex.remove, known]
        exact if_neg many

/-- Removing never panics, drops the aircraft's document and tells whether
there was one. -/
theorem Represents.remove (represents : index.Represents surviving)
    (orders : Nat → IterationOrder String) (aircraft : String) :
    ∃ after,
      index.remove orders aircraft =
          some (after, surviving[aircraft]?.isSome) ∧
        after.Represents (surviving.erase aircraft) := by
  have present := represents.slots.byKey_isSome aircraft
  rcases index.remove_cases orders aircraft with
    ⟨unknown, removed⟩ | ⟨slot, known, ⟨-, removed⟩ | ⟨-, removed⟩⟩
  · rw [unknown, Option.isSome_none] at present
    have absent : surviving[aircraft]? = none := by
      rw [← Option.isNone_iff_eq_none, ← Option.isSome_eq_false_iff]
      exact present.symm
    refine ⟨index, by rw [removed, ← present], ?_⟩
    rw [erase_of_getElem?_none absent]
    exact represents
  · rw [known, Option.isSome_some] at present
    exact ⟨_, by rw [removed, ← present], represents.bury known⟩
  · rw [known, Option.isSome_some] at present
    obtain ⟨after, rebuilt, afterRepresents⟩ :=
      (represents.bury known).rebuild orders
    exact ⟨after, by rw [removed, rebuilt, ← present]; rfl, afterRepresents⟩

/-- An index finds exactly what it represents. -/
theorem Represents.find_eq (represents : index.Represents surviving)
    (aircraft : String) : index.find aircraft = surviving[aircraft]? := by
  rw [← represents.slots.find_eq, find, Option.bind_eq_bind]
  cases known : index.byKey[aircraft]? with
  | none => rfl
  | some slot =>
      obtain ⟨doc, held, -⟩ := (represents.slots.keyed _ _).mp known
      rw [Option.bind_some, Option.bind_some, held, (docs_of_docAt held).1]

end VectorIndex

/-! ## The two indexes of a store -/

section Mirror

variable {engine : VectorEngine} {orders : Nat → IterationOrder String}

/-- The vector index does what a vector view is to do. -/
def vectorMirror (real : Type) (engine : VectorEngine)
    (orders : Nat → IterationOrder String) :
    VectorMirror (vectorSide real engine orders) where
  represents state docs :=
    ∃ index, state.1 = some index ∧ index.Represents docs
  insert := by
    rintro ⟨_, passes⟩ docs ⟨index, rfl, represents⟩ doc
    exact represents.insert (orders passes) doc
  remove := by
    rintro ⟨_, passes⟩ docs ⟨index, rfl, represents⟩ icao24
    obtain ⟨after, removed, afterRepresents⟩ :=
      represents.remove (fun number => orders (passes + number)) icao24
    refine ⟨after, ?_, afterRepresents⟩
    simp only [vectorSide, Option.bind_some, removed, Option.map_some]

/-- It tells whether it held the aircraft. -/
theorem vectorSide_remove_present
    {state : (vectorSide real engine orders).State}
    {docs : Std.ExtTreeMap String (FlightDocument real)}
    (represents : (vectorMirror real engine orders).represents state docs)
    (icao24 : String) :
    ((vectorSide real engine orders).remove state icao24).2 =
      docs[icao24]?.isSome := by
  obtain ⟨found, passes⟩ := state
  obtain ⟨index, rfl, indexRepresents⟩ := represents
  obtain ⟨after, removed, -⟩ :=
    indexRepresents.remove (fun number => orders (passes + number)) icao24
  simp only [vectorSide, Option.bind_some, removed, Option.map_some,
    Option.getD_some]

end Mirror

/-- The document of an aircraft in the keyword index. -/
def InvertedIndex.find (index : InvertedIndex real) (icao24 : String) :
    Option (FlightDocument real) := do
  let docId ← index.byKey[icao24]?
  let slot ← index.docs[docId]?
  slot

/-- A call that changes the store, with the passes it makes over hash maps. -/
inductive StoreCall (real : Type) where
  | insert (outgoing incoming : Passes) (doc : FlightDocument real)
  | remove (outgoing : Passes) (icao24 : String)
  | evictVshard (passes : Nat → Passes) (vshard v : UInt32)
  | replaceAll (passes : Nat → Passes) (docs : List (FlightDocument real))

namespace ShardStore

/-- The store after a call. -/
def call {vectors : VectorSide real} (rules : TextRules)
    (store : ShardStore real vectors) :
    StoreCall real → Option (ShardStore real vectors)
  | .insert outgoing incoming doc => store.insert rules outgoing incoming doc
  | .remove outgoing icao24 =>
      (store.remove rules outgoing icao24).map Prod.fst
  | .evictVshard passes vshard v =>
      (store.evictVshard rules passes vshard v).map Prod.fst
  | .replaceAll passes docs => store.replaceAll rules passes docs

variable {engine : VectorEngine} {orders : Nat → IterationOrder String}

/-- Both indexes have the same aircraft, with the same document each, and the
store's length is their number. -/
def InStep (store : ShardStore real (vectorSide real engine orders)) : Prop :=
  ∃ index, store.vector.1 = some index ∧
    (∀ aircraft, aircraft ∈ store.keyword.byKey ↔ aircraft ∈ index.byKey) ∧
    (∀ aircraft ∈ store.keyword.byKey, ∃ doc,
      store.keyword.find aircraft = some doc ∧
        index.find aircraft = some doc) ∧
    store.len = store.keyword.byKey.keys.length ∧
    store.len = index.byKey.keys.length

/-- Each of the removals, made in turn, finds its aircraft in both indexes or
in neither. -/
def RemovalsAgree (rules : TextRules) :
    (Nat → Passes) → ShardStore real (vectorSide real engine orders) →
      List String → Prop
  | _, _, [] => True
  | passes, store, icao24 :: rest =>
      ∃ after present,
        store.remove rules (passes 0) icao24 = some (after, present) ∧
          ((vectorSide real engine orders).remove store.vector icao24).2 =
              present ∧
            RemovalsAgree rules (fun number => passes (number + 1)) after rest

/-- Both indexes hold the surviving documents. -/
structure Twofold (rules : TextRules)
    (store : ShardStore real (vectorSide real engine orders))
    (surviving : Std.ExtTreeMap String (FlightDocument real)) : Prop where
  holds : store.Holds rules surviving
  mirrors : (vectorMirror real engine orders).represents store.vector surviving

variable {rules : TextRules}
variable {store : ShardStore real (vectorSide real engine orders)}
variable {surviving : Std.ExtTreeMap String (FlightDocument real)}

private theorem keyword_find_eq (holds : store.Holds rules surviving)
    (aircraft : String) :
    store.keyword.find aircraft = surviving[aircraft]? := by
  rw [← holds.slots.find_eq]
  rfl

private theorem Twofold.inStep (twofold : store.Twofold rules surviving) :
    store.InStep := by
  obtain ⟨index, found, represents⟩ := twofold.mirrors
  have keywordKeys : ∀ aircraft,
      aircraft ∈ store.keyword.byKey ↔ surviving[aircraft]?.isSome = true := by
    intro aircraft
    rw [Std.ExtTreeMap.mem_iff_isSome_getElem?,
      twofold.holds.slots.byKey_isSome]
  have vectorKeys : ∀ aircraft,
      aircraft ∈ index.byKey ↔ surviving[aircraft]?.isSome = true := by
    intro aircraft
    rw [Std.ExtTreeMap.mem_iff_isSome_getElem?, represents.slots.byKey_isSome]
  refine ⟨index, found, ?_, ?_, ?_, ?_⟩
  · intro aircraft
    rw [keywordKeys, vectorKeys]
  · intro aircraft member
    rw [keywordKeys, Option.isSome_iff_exists] at member
    obtain ⟨doc, survives⟩ := member
    exact ⟨doc, (keyword_find_eq twofold.holds aircraft).trans survives,
      (represents.find_eq aircraft).trans survives⟩
  · rw [Std.ExtTreeMap.length_keys]
    rfl
  · rw [Std.ExtTreeMap.length_keys, represents.slots.size_eq,
      ← twofold.holds.slots.size_eq]
    rfl

private theorem twofold_new :
    (new : ShardStore real (vectorSide real engine orders)).Twofold rules ∅ where
  holds := holds_new rules
  mirrors := ⟨.new, rfl, VectorIndex.represents_empty false⟩

theorem Twofold.insert (twofold : store.Twofold rules surviving)
    (outgoing incoming : Passes) (doc : FlightDocument real) :
    ∃ after, store.insert rules outgoing incoming doc = some after ∧
      after.Twofold rules (surviving.insert doc.icao24 doc) := by
  obtain ⟨after, inserted, holds⟩ := twofold.holds.insert outgoing incoming doc
  have sameVector : after.vector =
      (vectorSide real engine orders).insert store.vector doc := by
    rw [ShardStore.insert, Option.bind_eq_bind,
      Option.bind_eq_some_iff] at inserted
    obtain ⟨keyword, -, afterIs⟩ := inserted
    cases afterIs
    rfl
  refine ⟨after, inserted, holds, ?_⟩
  rw [sameVector]
  exact (vectorMirror real engine orders).insert twofold.mirrors doc

theorem Twofold.remove (twofold : store.Twofold rules surviving)
    (outgoing : Passes) (icao24 : String) :
    ∃ after,
      store.remove rules outgoing icao24 =
          some (after, surviving[icao24]?.isSome) ∧
        after.Twofold rules (surviving.erase icao24) := by
  obtain ⟨after, removed, holds⟩ := twofold.holds.remove outgoing icao24
  have sameVector : after.vector =
      ((vectorSide real engine orders).remove store.vector icao24).1 := by
    rw [ShardStore.remove, Option.bind_eq_bind,
      Option.bind_eq_some_iff] at removed
    obtain ⟨⟨keyword, present⟩, -, afterIs⟩ := removed
    rw [Option.some.injEq, Prod.mk.injEq] at afterIs
    rw [← afterIs.1]
  refine ⟨after, removed, holds, ?_⟩
  rw [sameVector]
  exact (vectorMirror real engine orders).remove twofold.mirrors icao24

private theorem Twofold.removalsAgree (twofold : store.Twofold rules surviving)
    (passes : Nat → Passes) (aircraft : List String) :
    RemovalsAgree rules passes store aircraft := by
  induction aircraft generalizing passes store surviving with
  | nil =>
      trivial
  | cons icao24 rest inductionHypothesis =>
      obtain ⟨after, removed, afterTwofold⟩ :=
        twofold.remove (passes 0) icao24
      exact ⟨after, _, removed,
        vectorSide_remove_present twofold.mirrors icao24,
        inductionHypothesis afterTwofold _⟩

theorem Twofold.removeAll (twofold : store.Twofold rules surviving)
    (passes : Nat → Passes) (aircraft : List String) :
    ∃ after, ShardStore.removeAll rules passes store aircraft = some after ∧
      after.Twofold rules
        (aircraft.foldl (fun found icao24 => found.erase icao24)
          surviving) := by
  obtain ⟨after, removed, holds⟩ := twofold.holds.removeAll passes aircraft
  refine ⟨after, removed, holds, ?_⟩
  rw [vector_removeAll passes aircraft removed]
  exact VectorMirror.foldl_remove twofold.mirrors aircraft

private theorem twofold_replaceAll (twofold : store.Twofold rules surviving)
    (passes : Nat → Passes) (docs : List (FlightDocument real)) :
    ∃ after, store.replaceAll rules passes docs = some after ∧
      after.Twofold rules
        (docs.foldl (fun found doc => found.insert doc.icao24 doc) ∅) := by
  obtain ⟨after, inserted, holds⟩ :=
    holds_replaceAll rules passes store docs
  refine ⟨after, inserted, holds, ?_⟩
  have restarted : (vectorMirror real engine orders).represents
      ((vectorSide real engine orders).restart store.vector) ∅ := by
    obtain ⟨index, found, -⟩ := twofold.mirrors
    refine ⟨.new, ?_, VectorIndex.represents_empty false⟩
    simp only [vectorSide, found, Option.map_some]
  have filled : after.vector = docs.foldl
      (vectorSide real engine orders).insert
        ((vectorSide real engine orders).restart store.vector) :=
    vector_insertAll passes docs inserted
  rw [filled]
  exact VectorMirror.foldl_insert restarted docs

/-- Erasing different keys that are all there takes one entry each. -/
theorem size_foldl_erase
    {table : Std.ExtTreeMap String (FlightDocument real)}
    {doomed : List String} (once : doomed.Nodup)
    (present : ∀ key ∈ doomed, key ∈ table) :
    (doomed.foldl (fun found key => found.erase key) table).size +
      doomed.length = table.size := by
  induction doomed generalizing table with
  | nil =>
      rfl
  | cons key rest inductionHypothesis =>
      rw [List.nodup_cons] at once
      have keyPresent := present key List.mem_cons_self
      have positive : 0 < table.size := by
        rw [Nat.pos_iff_ne_zero]
        intro empty
        rw [← Std.ExtTreeMap.eq_empty_iff_size_eq_zero] at empty
        rw [empty] at keyPresent
        exact Std.ExtTreeMap.not_mem_empty keyPresent
      have restPresent : ∀ other ∈ rest, other ∈ table.erase key := by
        intro other member
        rw [Std.ExtTreeMap.mem_erase]
        refine ⟨?_, present other (List.mem_cons_of_mem key member)⟩
        intro same
        rw [Std.LawfulEqCmp.compare_eq_iff_eq] at same
        exact once.1 (same ▸ member)
      have later := inductionHypothesis once.2 restPresent
      rw [Std.ExtTreeMap.size_erase,
        if_pos (Std.ExtTreeMap.contains_iff_mem.mpr keyPresent)] at later
      rw [List.foldl_cons, List.length_cons]
      omega

private theorem doomed_nodup (holds : store.Holds rules surviving)
    (vshard v : UInt32) : (store.doomed vshard v).Nodup := by
  have once : (store.documents.map FlightDocument.icao24).Nodup :=
    InvertedIndex.Represents.documents_once holds
  exact once.sublist (List.filter_sublist.map _)

private theorem mem_of_mem_doomed (holds : store.Holds rules surviving)
    {vshard v : UInt32} {icao24 : String}
    (member : icao24 ∈ store.doomed vshard v) : icao24 ∈ surviving := by
  rw [doomed, List.mem_map] at member
  obtain ⟨doc, listed, rfl⟩ := member
  have survives := holds.mem_documents.mp (List.mem_filter.mp listed).1
  rw [Std.ExtTreeMap.mem_iff_isSome_getElem?, survives]
  rfl

/-- An eviction counts the documents it removes. -/
theorem Twofold.evictVshard (twofold : store.Twofold rules surviving)
    (passes : Nat → Passes) (vshard v : UInt32) :
    ∃ after count kept,
      store.evictVshard rules passes vshard v = some (after, count) ∧
        after.Twofold rules kept ∧ after.len + count = store.len := by
  by_cases degenerate : v = 0
  · refine ⟨store, 0, surviving, ?_, twofold, rfl⟩
    rw [ShardStore.evictVshard, if_pos degenerate]
  · obtain ⟨after, removed, afterTwofold⟩ :=
      twofold.removeAll passes (store.doomed vshard v)
    refine ⟨after, (store.doomed vshard v).length, _, ?_, afterTwofold, ?_⟩
    · rw [ShardStore.evictVshard, if_neg degenerate, removed]
      rfl
    · have afterLen := afterTwofold.holds.slots.size_eq
      have beforeLen := twofold.holds.slots.size_eq
      have taken := size_foldl_erase (doomed_nodup twofold.holds vshard v)
        (fun _ member => mem_of_mem_doomed twofold.holds member)
      rw [← afterLen, ← beforeLen] at taken
      exact taken

theorem Twofold.call (twofold : store.Twofold rules surviving)
    (next : StoreCall real) :
    ∃ after later, store.call rules next = some after ∧
      after.Twofold rules later := by
  cases next with
  | insert outgoing incoming doc =>
      obtain ⟨after, inserted, afterTwofold⟩ :=
        twofold.insert outgoing incoming doc
      exact ⟨after, _, inserted, afterTwofold⟩
  | remove outgoing icao24 =>
      obtain ⟨after, removed, afterTwofold⟩ := twofold.remove outgoing icao24
      refine ⟨after, _, ?_, afterTwofold⟩
      simp only [ShardStore.call, removed, Option.map_some]
  | evictVshard passes vshard v =>
      obtain ⟨after, count, kept, evicted, afterTwofold, -⟩ :=
        twofold.evictVshard passes vshard v
      refine ⟨after, kept, ?_, afterTwofold⟩
      simp only [ShardStore.call, evicted, Option.map_some]
  | replaceAll passes docs =>
      obtain ⟨after, replaced, afterTwofold⟩ :=
        twofold_replaceAll twofold passes docs
      exact ⟨after, _, replaced, afterTwofold⟩

/-- No call panics, and both indexes hold the same documents after it. -/
theorem twofold_reached (rules : TextRules) (engine : VectorEngine)
    (orders : Nat → IterationOrder String) (calls : List (StoreCall real)) :
    ∃ (store : ShardStore real (vectorSide real engine orders)) (surviving : _),
      calls.foldlM (ShardStore.call rules) new = some store ∧
        store.Twofold rules surviving := by
  induction calls using List.reverseRecOn with
  | nil =>
      exact ⟨new, ∅, rfl, twofold_new⟩
  | append_singleton earlier next inductionHypothesis =>
      obtain ⟨store, surviving, reached, twofold⟩ := inductionHypothesis
      obtain ⟨after, later, called, afterTwofold⟩ := twofold.call next
      refine ⟨after, later, ?_, afterTwofold⟩
      rw [List.foldlM_append, reached]
      simp only [Option.bind_eq_bind, Option.bind_some, List.foldlM_cons,
        List.foldlM_nil, called]
      rfl

/-- After any calls the two indexes are in step, removals (those of an eviction
too) find their aircraft in both or in neither, and an eviction tells how many
documents it removes. -/
theorem indexes_in_step (rules : TextRules) (engine : VectorEngine)
    (orders : Nat → IterationOrder String) (calls : List (StoreCall real)) :
    ∃ store : ShardStore real (vectorSide real engine orders),
      calls.foldlM (ShardStore.call rules) new = some store ∧
      store.InStep ∧
      (∀ passes aircraft, RemovalsAgree rules passes store aircraft) ∧
      (∀ passes vshard v, ∃ after count,
        store.evictVshard rules passes vshard v = some (after, count) ∧
          after.len + count = store.len) := by
  obtain ⟨store, surviving, reached, twofold⟩ :=
    twofold_reached rules engine orders calls
  refine ⟨store, reached, twofold.inStep, twofold.removalsAgree, ?_⟩
  intro passes vshard v
  obtain ⟨after, count, -, evicted, -, counted⟩ :=
    twofold.evictVshard passes vshard v
  exact ⟨after, count, evicted, counted⟩

end ShardStore

end AetherEngine.Shard
