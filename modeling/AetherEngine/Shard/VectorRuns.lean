import AetherEngine.Shard.VectorIndex

/-!
# Runs of the vector index

Over every run of insertions and removals the lists of the index have one item
for each slot, every slot's vector is the embedding of its text, every live
slot's text is one of its document, and the tombstones stay below the rebuild
threshold.
-/

namespace AetherEngine.Shard

open AetherEngine.Common
open AetherEngine.Ranking
open AetherEngine.Tables

variable {real : Type}

/-- A call that changes the index. -/
inductive IndexCall (real : Type) where
  | insert (doc : FlightDocument real)
  | remove (icao24 : String)
  | setQuantized (on : Bool)

namespace IndexCall

/-- What a call does to the documents, by aircraft. -/
def survive (surviving : Std.ExtTreeMap String (FlightDocument real)) :
    IndexCall real → Std.ExtTreeMap String (FlightDocument real)
  | insert doc => surviving.insert doc.icao24 doc
  | remove icao24 => surviving.erase icao24
  | setQuantized _ => surviving

end IndexCall

/-- The last document of every aircraft that was not removed since. -/
def survivingAfter (calls : List (IndexCall real)) :
    Std.ExtTreeMap String (FlightDocument real) :=
  calls.foldl IndexCall.survive ∅

namespace VectorIndex

variable {engine : VectorEngine}

/-- Switch search to the two-tier pipeline, or back. -/
def setQuantized (index : VectorIndex real engine) (on : Bool) :
    VectorIndex real engine :=
  { index with quantizedMode := on }

/-- The index after a call, which makes its passes over text fields in the
given orders. -/
def call (orders : Nat → IterationOrder String)
    (index : VectorIndex real engine) :
    IndexCall real → Option (VectorIndex real engine)
  | .insert doc => index.insert (orders 0) doc
  | .remove icao24 => (index.remove orders icao24).map Prod.fst
  | .setQuantized on => some (index.setQuantized on)

/-- The index after some calls, each with passes of its own. -/
def run :
    (Nat → Nat → IterationOrder String) → VectorIndex real engine →
      List (IndexCall real) → Option (VectorIndex real engine)
  | _, index, [] => some index
  | passes, index, next :: rest => do
      let index ← index.call (passes 0) next
      run (fun number => passes (number + 1)) index rest

/-- The index holds the surviving documents, its parallel lists belong together
slot by slot, and tombstones are few. -/
structure Aligned (index : VectorIndex real engine)
    (surviving : Std.ExtTreeMap String (FlightDocument real)) : Prop where
  represents : index.Represents surviving
  balanced : index.docs.length = index.byKey.size + index.tombstoned.card
  few : index.tombstoned.card ≤ max 15 (index.byKey.size / 4)
  texts : ∀ slot doc, index.docAt slot = some doc →
    ∃ order, index.texts[slot]? = some (embeddableText order doc)
  vectors : ∀ (slot : Nat) (text : String), index.texts[slot]? = some text →
    index.slotVectors[slot]? = some (engine.embed text) ∧
      index.quantized[slot]? = some (engine.quantize (engine.embed text))

theorem aligned_empty (mode : Bool) :
    Aligned ({ new with quantizedMode := mode } : VectorIndex real engine)
      ∅ where
  represents := represents_empty mode
  balanced := rfl
  few := Nat.zero_le _
  texts := by simp [new, docAt]
  vectors := by simp [new]

variable {index : VectorIndex real engine}
variable {surviving : Std.ExtTreeMap String (FlightDocument real)}

theorem Aligned.setQuantized (aligned : index.Aligned surviving) (on : Bool) :
    (index.setQuantized on).Aligned surviving where
  represents :=
    ⟨aligned.represents.slots, aligned.represents.texts,
      aligned.represents.slotVectors, aligned.represents.quantized,
      aligned.represents.buried⟩
  balanced := aligned.balanced
  few := aligned.few
  texts := aligned.texts
  vectors := aligned.vectors

/-- A known aircraft is observed again under the same text. -/
theorem Aligned.replace (aligned : index.Aligned surviving)
    {order : IterationOrder String} {doc : FlightDocument real} {slot : Nat}
    (known : index.byKey[doc.icao24]? = some slot)
    (sameText : index.texts[slot]? = some (embeddableText order doc)) :
    Aligned { index with docs := index.docs.set slot doc }
      (surviving.insert doc.icao24 doc) := by
  have held : ({ index with docs := index.docs.set slot doc } :
      VectorIndex real engine).docAt =
        Function.update index.docAt slot (some doc) := by
    obtain ⟨old, held, -⟩ :=
      (aligned.represents.slots.keyed _ _).mp known
    exact docAt_of_set (aligned.represents.slot_lt known)
      (docs_of_docAt held).2 rfl rfl
  refine ⟨aligned.represents.replace known rfl rfl rfl rfl rfl rfl, ?_,
    aligned.few, ?_, aligned.vectors⟩
  · exact (List.length_set ..).trans aligned.balanced
  · intro other stored
    rw [held]
    by_cases same : other = slot
    · subst same
      rw [Function.update_self]
      intro equal
      rw [← Option.some.inj equal]
      exact ⟨order, sameText⟩
    · rw [Function.update_of_ne same]
      exact aligned.texts other stored

/-- A known aircraft is observed again under another text. -/
theorem Aligned.reembed (aligned : index.Aligned surviving)
    (order : IterationOrder String) {doc : FlightDocument real} {slot : Nat}
    (known : index.byKey[doc.icao24]? = some slot) :
    (index.reembed slot doc (embeddableText order doc)).Aligned
      (surviving.insert doc.icao24 doc) := by
  have inside := aligned.represents.slot_lt known
  have held : (index.reembed slot doc (embeddableText order doc)).docAt =
      Function.update index.docAt slot (some doc) := by
    obtain ⟨old, held, -⟩ :=
      (aligned.represents.slots.keyed _ _).mp known
    exact docAt_of_set inside (docs_of_docAt held).2 rfl rfl
  refine ⟨aligned.represents.replace known rfl rfl rfl (List.length_set ..)
    (List.length_set ..) (List.length_set ..), ?_, aligned.few, ?_, ?_⟩
  · exact (List.length_set ..).trans aligned.balanced
  · intro other stored
    rw [held, VectorIndex.reembed]
    by_cases same : other = slot
    · subst same
      rw [Function.update_self]
      intro equal
      rw [← Option.some.inj equal]
      exact ⟨order, List.getElem?_set_self
        (aligned.represents.texts ▸ inside)⟩
    · rw [Function.update_of_ne same]
      intro stays
      obtain ⟨earlier, text⟩ := aligned.texts other stored stays
      exact ⟨earlier, (List.getElem?_set_ne (Ne.symm same)).trans text⟩
  · intro other text found
    simp only [VectorIndex.reembed] at found ⊢
    by_cases same : other = slot
    · subst same
      rw [List.getElem?_set_self (aligned.represents.texts ▸ inside),
        Option.some.injEq] at found
      rw [List.getElem?_set_self (aligned.represents.slotVectors ▸ inside),
        List.getElem?_set_self (aligned.represents.quantized ▸ inside),
        found]
      exact ⟨rfl, rfl⟩
    · rw [List.getElem?_set_ne (Ne.symm same)] at found ⊢
      rw [List.getElem?_set_ne (Ne.symm same)]
      exact aligned.vectors other text found

/-- A new aircraft is observed. -/
theorem Aligned.insertNew (aligned : index.Aligned surviving)
    (order : IterationOrder String) {doc : FlightDocument real}
    (unknown : index.byKey[doc.icao24]? = none) :
    (index.insertNew order doc).Aligned
      (surviving.insert doc.icao24 doc) := by
  have represents := aligned.represents
  have fresh : index.docs.length ∉ index.tombstoned := fun isBuried =>
    Nat.lt_irrefl _ (represents.buried _ isBuried)
  have pushed : (index.insertNew order doc).docAt =
      Function.update index.docAt index.docs.length (some doc) :=
    docAt_of_push fresh rfl rfl
  have size : (index.insertNew order doc).byKey.size =
      index.byKey.size + 1 := by
    have absent : ¬ index.byKey.contains doc.icao24 = true := by
      rw [Std.ExtTreeMap.contains_iff_mem,
        Std.ExtTreeMap.mem_iff_isSome_getElem?, unknown]
      simp
    simp only [VectorIndex.insertNew]
    rw [Std.ExtTreeMap.size_insert, if_neg absent]
  refine ⟨represents.insertNew order unknown, ?_, ?_, ?_, ?_⟩
  · have balanced := aligned.balanced
    rw [size]
    simp only [VectorIndex.insertNew, List.length_append,
      List.length_singleton]
    omega
  · have few := aligned.few
    rw [size]
    simp only [VectorIndex.insertNew]
    omega
  · intro other stored
    rw [pushed]
    by_cases same : other = index.docs.length
    · subst same
      rw [Function.update_self]
      intro equal
      rw [← Option.some.inj equal, ← represents.texts]
      exact ⟨order, List.getElem?_concat_length⟩
    · rw [Function.update_of_ne same]
      intro stays
      obtain ⟨earlier, text⟩ := aligned.texts other stored stays
      refine ⟨earlier, ?_⟩
      rw [← represents.texts] at same
      exact (getElem?_concat_of_ne same).trans text
  · intro other text found
    simp only [VectorIndex.insertNew] at found ⊢
    by_cases same : other = index.docs.length
    · subst same
      rw [← represents.texts, List.getElem?_concat_length,
        Option.some.injEq] at found
      rw [← found]
      constructor
      · rw [← represents.slotVectors, List.getElem?_concat_length]
      · rw [← represents.quantized, List.getElem?_concat_length]
    · rw [getElem?_concat_of_ne (represents.texts ▸ same)] at found
      rw [getElem?_concat_of_ne (represents.slotVectors ▸ same),
        getElem?_concat_of_ne (represents.quantized ▸ same)]
      exact aligned.vectors other text found

theorem Aligned.insert (aligned : index.Aligned surviving)
    (order : IterationOrder String) (doc : FlightDocument real) :
    ∃ after, index.insert order doc = some after ∧
      after.Aligned (surviving.insert doc.icao24 doc) := by
  rcases aligned.represents.insert_cases order doc with
    ⟨slot, known, sameText, inserted⟩ | ⟨slot, text, known, -, -, inserted⟩ |
      ⟨unknown, inserted⟩
  · exact ⟨_, inserted, aligned.replace known sameText⟩
  · exact ⟨_, inserted, aligned.reembed order known⟩
  · exact ⟨_, inserted, aligned.insertNew order unknown⟩

theorem Represents.rebuilt (represents : index.Represents surviving)
    (orders : Nat → IterationOrder String) :
    ∃ after, index.rebuild orders = some after ∧
      after.Aligned surviving :=
  InsertKeeps.rebuild (fun _ _ order doc aligned => aligned.insert order doc)
    aligned_empty represents orders

/-- A tombstone below the threshold. -/
theorem Aligned.bury (aligned : index.Aligned surviving) {aircraft : String}
    {slot : Nat} (known : index.byKey[aircraft]? = some slot)
    (enough : ¬ (index.bury aircraft slot).shouldRebuild) :
    (index.bury aircraft slot).Aligned (surviving.erase aircraft) := by
  obtain ⟨doc, held, -⟩ := (aligned.represents.slots.keyed _ _).mp known
  have alive := (docs_of_docAt held).2
  have present : index.byKey.contains aircraft = true := by
    rw [Std.ExtTreeMap.contains_iff_mem,
      Std.ExtTreeMap.mem_iff_isSome_getElem?, known]
    rfl
  have size : (index.bury aircraft slot).byKey.size =
      index.byKey.size - 1 := by
    simp only [VectorIndex.bury]
    rw [Std.ExtTreeMap.size_erase, if_pos present]
  have positive : 0 < index.byKey.size := by
    rw [Nat.pos_iff_ne_zero]
    intro empty
    rw [← Std.ExtTreeMap.eq_empty_iff_size_eq_zero] at empty
    rw [empty] at known
    simp at known
  have buried : (index.bury aircraft slot).tombstoned.card =
      index.tombstoned.card + 1 :=
    Finset.card_insert_of_notMem alive
  refine ⟨aligned.represents.bury known, ?_, ?_, ?_, aligned.vectors⟩
  · have balanced := aligned.balanced
    rw [size, buried]
    simp only [VectorIndex.bury]
    omega
  · rw [shouldRebuild, rebuildMinTombstones] at enough
    omega
  · intro other stored
    rw [docAt_bury]
    by_cases same : other = slot
    · subst same
      rw [Function.update_self]
      intro impossible
      contradiction
    · rw [Function.update_of_ne same]
      exact aligned.texts other stored

theorem Aligned.remove (aligned : index.Aligned surviving)
    (orders : Nat → IterationOrder String) (aircraft : String) :
    ∃ after present, index.remove orders aircraft = some (after, present) ∧
      after.Aligned (surviving.erase aircraft) := by
  rcases index.remove_cases orders aircraft with
    ⟨unknown, removed⟩ | ⟨slot, known, ⟨enough, removed⟩ | ⟨-, removed⟩⟩
  · have absent : surviving[aircraft]? = none := by
      rw [← aligned.represents.slots.find_eq, unknown]
      rfl
    refine ⟨index, false, removed, ?_⟩
    rw [erase_of_getElem?_none absent]
    exact aligned
  · exact ⟨_, true, removed, aligned.bury known enough⟩
  · obtain ⟨after, rebuilt, afterAligned⟩ :=
      (aligned.represents.bury known).rebuilt orders
    exact ⟨after, true, by rw [removed, rebuilt]; rfl, afterAligned⟩

theorem Aligned.call (aligned : index.Aligned surviving)
    (orders : Nat → IterationOrder String) (next : IndexCall real) :
    ∃ after, index.call orders next = some after ∧
      after.Aligned (next.survive surviving) := by
  cases next with
  | insert doc => exact aligned.insert (orders 0) doc
  | remove aircraft =>
      obtain ⟨after, present, removed, afterAligned⟩ :=
        aligned.remove orders aircraft
      refine ⟨after, ?_, afterAligned⟩
      rw [VectorIndex.call, removed]
      rfl
  | setQuantized on => exact ⟨_, rfl, aligned.setQuantized on⟩

/-- What every call keeps holds after every run. -/
theorem run_of_call
    (holds : VectorIndex real engine →
      Std.ExtTreeMap String (FlightDocument real) → Prop)
    (keeps : ∀ index surviving orders next, holds index surviving →
      ∃ after, index.call orders next = some after ∧
        holds after (next.survive surviving))
    (start : holds index surviving)
    (passes : Nat → Nat → IterationOrder String)
    (calls : List (IndexCall real)) :
    ∃ after, VectorIndex.run passes index calls = some after ∧
      holds after (calls.foldl IndexCall.survive surviving) := by
  induction calls generalizing passes index surviving with
  | nil =>
      exact ⟨index, rfl, start⟩
  | cons next rest inductionHypothesis =>
      obtain ⟨middle, called, middleHolds⟩ :=
        keeps index surviving (passes 0) next start
      obtain ⟨after, finished, afterHolds⟩ :=
        inductionHypothesis middleHolds (fun number => passes (number + 1))
      refine ⟨after, ?_, afterHolds⟩
      rw [VectorIndex.run, called]
      exact finished

/-- No run panics, and every run keeps the index aligned. -/
theorem aligned_run (engine : VectorEngine)
    (passes : Nat → Nat → IterationOrder String)
    (calls : List (IndexCall real)) :
    ∃ index : VectorIndex real engine,
      run passes new calls = some index ∧
        index.Aligned (survivingAfter calls) :=
  run_of_call Aligned
    (fun _ _ orders next aligned => aligned.call orders next)
    (aligned_empty false) passes calls

/-! ## Properties of every run -/

/-- What every change of an index keeps. -/
structure Kept (property : VectorIndex real engine → Prop) : Prop where
  empty : ∀ mode, property { new with quantizedMode := mode }
  setQuantized : ∀ index on, property index → property (index.setQuantized on)
  replace : ∀ (index : VectorIndex real engine) slot doc, property index →
    property { index with docs := index.docs.set slot doc }
  reembed : ∀ (index : VectorIndex real engine) slot doc text,
    slot < index.docs.length → property index →
      property (index.reembed slot doc text)
  insertNew : ∀ (index : VectorIndex real engine) order doc, property index →
    property (index.insertNew order doc)
  bury : ∀ (index : VectorIndex real engine) aircraft slot, property index →
    property (index.bury aircraft slot)

variable {property : VectorIndex real engine → Prop}

theorem Kept.insert (kept : Kept property) :
    InsertKeeps (fun index surviving =>
      index.Aligned surviving ∧ property index) := by
  intro index surviving order doc both
  obtain ⟨aligned, holds⟩ := both
  obtain ⟨after, inserted, afterAligned⟩ := aligned.insert order doc
  refine ⟨after, inserted, afterAligned, ?_⟩
  refine aligned.represents.insert_induction property inserted ?_ ?_ ?_
  · intro slot _
    exact kept.replace index slot doc holds
  · intro slot known
    exact kept.reembed index slot doc _ (aligned.represents.slot_lt known) holds
  · exact kept.insertNew index order doc holds

theorem Kept.call (kept : Kept property) (aligned : index.Aligned surviving)
    (holds : property index) (orders : Nat → IterationOrder String)
    (next : IndexCall real) :
    ∃ after, index.call orders next = some after ∧
      after.Aligned (next.survive surviving) ∧ property after := by
  cases next with
  | insert doc =>
      exact kept.insert index surviving (orders 0) doc ⟨aligned, holds⟩
  | setQuantized on =>
      exact ⟨_, rfl, aligned.setQuantized on,
        kept.setQuantized index on holds⟩
  | remove aircraft =>
      obtain ⟨after, called, afterAligned⟩ :=
        aligned.call orders (.remove aircraft)
      refine ⟨after, called, afterAligned, ?_⟩
      rw [VectorIndex.call] at called
      rcases index.remove_cases orders aircraft with
        ⟨-, removed⟩ | ⟨slot, known, ⟨-, removed⟩ | ⟨-, removed⟩⟩
      · rw [removed] at called
        rw [← Option.some.inj called]
        exact holds
      · rw [removed] at called
        rw [← Option.some.inj called]
        exact kept.bury index aircraft slot holds
      · obtain ⟨rebuilt, refilled, -, rebuiltHolds⟩ :=
          kept.insert.rebuild
            (fun mode => ⟨aligned_empty mode, kept.empty mode⟩)
            (aligned.represents.bury known) orders
        rw [removed, refilled] at called
        rw [← Option.some.inj called]
        exact rebuiltHolds

/-- What every change keeps holds after every run. -/
theorem Kept.run (kept : Kept property)
    (passes : Nat → Nat → IterationOrder String)
    (calls : List (IndexCall real)) :
    ∃ index : VectorIndex real engine,
      VectorIndex.run passes new calls = some index ∧
        index.Aligned (survivingAfter calls) ∧ property index :=
  run_of_call
    (fun index surviving => index.Aligned surviving ∧ property index)
    (fun _ _ orders next both => kept.call both.1 both.2 orders next)
    ⟨aligned_empty false, kept.empty false⟩ passes calls

end VectorIndex

end AetherEngine.Shard
