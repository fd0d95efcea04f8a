import AetherEngine.Shard.VectorRuns

/-!
# Embedding as a function of the document

The text a document is embedded from takes the values of its text fields in the
order of a pass over a hash map, which differs from process to process and from
time to time.  The text is the document's own exactly if its values may be
written in any order.  Then replicas agree, and an aircraft observed again
unchanged costs no vector.
-/

namespace AetherEngine.Shard

open AetherEngine.Common
open AetherEngine.Ranking
open AetherEngine.Tables

variable {real : Type}

/-! ## The text of a document -/

/-- Any two values of text fields read the same in either order. -/
def Interchangeable (doc : FlightDocument real) : Prop :=
  ∀ value ∈ doc.text.toList.map Prod.snd,
    ∀ other ∈ doc.text.toList.map Prod.snd,
      " " ++ value ++ " " ++ other = " " ++ other ++ " " ++ value

private theorem foldl_values (values : List String) (text : String) :
    values.foldl (fun text value => text ++ " " ++ value) text =
      text ++ values.foldl (fun text value => text ++ " " ++ value) "" := by
  induction values generalizing text with
  | nil =>
      simp
  | cons head tail inductionHypothesis =>
      rw [List.foldl_cons, inductionHypothesis, List.foldl_cons,
        inductionHypothesis ("" ++ " " ++ head)]
      simp [String.append_assoc]

/-- What is written before and after two values plays no part. -/
theorem foldl_swap_iff {value other : String} (text : String)
    (rest : List String) :
    (value :: other :: rest).foldl (fun text value => text ++ " " ++ value)
        text =
      (other :: value :: rest).foldl (fun text value => text ++ " " ++ value)
        text ↔
      " " ++ value ++ " " ++ other = " " ++ other ++ " " ++ value := by
  simp only [List.foldl_cons]
  rw [foldl_values rest (text ++ " " ++ value ++ " " ++ other),
    foldl_values rest (text ++ " " ++ other ++ " " ++ value),
    String.append_left_inj]
  simp only [String.append_assoc, String.append_right_inj]

theorem embeddableText_iff_interchangeable (doc : FlightDocument real) :
    (∀ order order' : IterationOrder String,
        embeddableText order doc = embeddableText order' doc) ↔
      Interchangeable doc := by
  constructor
  · intro same value member other otherMember
    by_cases equal : value = other
    · rw [equal]
    · have inRest : other ∈ (doc.text.toList.map Prod.snd).erase value :=
        (List.mem_erase_of_ne (Ne.symm equal)).mpr otherMember
      have forth := ((List.perm_cons_erase member).trans
        ((List.perm_cons_erase inRest).cons value)).symm
      have back := (List.Perm.swap value other _).trans forth
      have texts := same (.ofPerm forth) (.ofPerm back)
      rw [embeddableText, embeddableText, IterationOrder.arrange_ofPerm,
        IterationOrder.arrange_ofPerm] at texts
      exact (foldl_swap_iff _ _).mp texts
  · intro interchangeable order order'
    have permuted := (order.perm (doc.text.toList.map Prod.snd)).trans
      (order'.perm (doc.text.toList.map Prod.snd)).symm
    apply permuted.foldl_eq'
    intro value member other otherMember text
    rw [IterationOrder.mem_arrange] at member otherMember
    exact (foldl_swap_iff text []).mpr
      (interchangeable value member other otherMember)

/-! ## Replicas and observations -/

/-- The documents a run inserts may all be written in any order. -/
def AllInterchangeable (calls : List (IndexCall real)) : Prop :=
  ∀ doc, .insert doc ∈ calls → Interchangeable doc

/-- So may the surviving documents. -/
def SurvivorsInterchangeable
    (surviving : Std.ExtTreeMap String (FlightDocument real)) : Prop :=
  ∀ (aircraft : String) (doc : FlightDocument real),
    surviving[aircraft]? = some doc → Interchangeable doc

namespace VectorIndex

variable {engine : VectorEngine} {index : VectorIndex real engine}
variable {surviving : Std.ExtTreeMap String (FlightDocument real)}

private theorem insert_of_interchangeable {doc : FlightDocument real}
    (interchangeable : Interchangeable doc) (order order' : IterationOrder String)
    (index : VectorIndex real engine) :
    index.insert order doc = index.insert order' doc := by
  have text := (embeddableText_iff_interchangeable doc).mpr interchangeable
    order order'
  simp only [VectorIndex.insert, VectorIndex.insertKnown,
    VectorIndex.insertNew, text]

private theorem insertAll_of_interchangeable {docs : List (FlightDocument real)}
    (interchangeable : ∀ doc ∈ docs, Interchangeable doc)
    (orders orders' : Nat → IterationOrder String)
    (index : VectorIndex real engine) :
    insertAll orders index docs = insertAll orders' index docs := by
  induction docs generalizing orders orders' index with
  | nil => rfl
  | cons doc rest inductionHypothesis =>
      rw [insertAll, insertAll, insert_of_interchangeable
        (interchangeable doc List.mem_cons_self) (orders 0) (orders' 0)]
      cases index.insert (orders' 0) doc with
      | none => rfl
      | some next =>
          exact inductionHypothesis
            (fun other member =>
              interchangeable other (List.mem_cons_of_mem doc member))
            _ _ next

/-- A rebuild inserts documents of the index again. -/
theorem Represents.rebuild_of_interchangeable
    (represents : index.Represents surviving)
    (interchangeable : SurvivorsInterchangeable surviving)
    (orders orders' : Nat → IterationOrder String) :
    index.rebuild orders = index.rebuild orders' := by
  apply insertAll_of_interchangeable
  intro doc live
  apply interchangeable doc.icao24 doc
  rw [represents.slots.stored]
  exact ⟨rfl, mem_liveDocuments.mp live⟩

private theorem Represents.remove_of_interchangeable
    (represents : index.Represents surviving)
    (interchangeable : SurvivorsInterchangeable surviving)
    (orders orders' : Nat → IterationOrder String) (aircraft : String) :
    index.remove orders aircraft = index.remove orders' aircraft := by
  cases known : index.byKey[aircraft]? with
  | none => simp only [VectorIndex.remove, known]
  | some slot =>
      have rebuilt :=
        (represents.bury known).rebuild_of_interchangeable
          (by
            intro other doc found
            rw [getElem?_erase] at found
            split at found
            · cases found
            · exact interchangeable other doc found)
          orders orders'
      rw [VectorIndex.bury] at rebuilt
      simp only [VectorIndex.remove, known, rebuilt]

private theorem Represents.call_of_interchangeable
    (represents : index.Represents surviving)
    (interchangeable : SurvivorsInterchangeable surviving)
    (orders orders' : Nat → IterationOrder String) {next : IndexCall real}
    (nextToo : ∀ doc, next = .insert doc → Interchangeable doc) :
    index.call orders next = index.call orders' next := by
  cases next with
  | insert doc =>
      exact insert_of_interchangeable (nextToo doc rfl) _ _ index
  | remove aircraft =>
      rw [call, call, represents.remove_of_interchangeable interchangeable
        orders orders']
  | setQuantized on => rfl

private theorem interchangeable_survive {next : IndexCall real}
    (interchangeable : SurvivorsInterchangeable surviving)
    (nextToo : ∀ doc, next = .insert doc → Interchangeable doc) :
    SurvivorsInterchangeable (next.survive surviving) := by
  intro aircraft doc found
  cases next with
  | insert inserted =>
      rw [IndexCall.survive, getElem?_insert] at found
      split at found
      · rw [← Option.some.inj found]
        exact nextToo inserted rfl
      · exact interchangeable aircraft doc found
  | remove removed =>
      rw [IndexCall.survive, getElem?_erase] at found
      split at found
      · cases found
      · exact interchangeable aircraft doc found
  | setQuantized on => exact interchangeable aircraft doc found

/-- The order of the passes plays no part in a run. -/
theorem Aligned.run_of_interchangeable (aligned : index.Aligned surviving)
    (interchangeable : SurvivorsInterchangeable surviving)
    {calls : List (IndexCall real)} (callsToo : AllInterchangeable calls)
    (passes passes' : Nat → Nat → IterationOrder String) :
    VectorIndex.run passes index calls = VectorIndex.run passes' index calls := by
  induction calls generalizing index surviving passes passes' with
  | nil => rfl
  | cons next rest inductionHypothesis =>
      have nextToo : ∀ doc, next = .insert doc → Interchangeable doc := by
        intro doc inserts
        exact callsToo doc (inserts ▸ List.mem_cons_self)
      obtain ⟨middle, called, middleAligned⟩ :=
        aligned.call (passes' 0) next
      rw [VectorIndex.run, VectorIndex.run,
        aligned.represents.call_of_interchangeable interchangeable (passes 0)
          (passes' 0) nextToo, called]
      exact inductionHypothesis middleAligned
        (interchangeable_survive interchangeable nextToo)
        (fun doc member => callsToo doc (List.mem_cons_of_mem next member))
        _ _

private theorem survivors_interchangeable {calls : List (IndexCall real)}
    (callsToo : AllInterchangeable calls) :
    SurvivorsInterchangeable (survivingAfter calls) := by
  induction calls using List.reverseRecOn with
  | nil =>
      intro aircraft doc found
      simp [survivingAfter] at found
  | append_singleton earlier last inductionHypothesis =>
      rw [survivingAfter, List.foldl_append, List.foldl_cons, List.foldl_nil]
      apply interchangeable_survive
      · apply inductionHypothesis
        intro doc member
        exact callsToo doc (List.mem_append_left _ member)
      · intro doc inserts
        apply callsToo doc
        rw [inserts]
        exact List.mem_append_right _ List.mem_cons_self

/-- An aircraft observed again unchanged costs no vector. -/
theorem Aligned.reobserve (aligned : index.Aligned surviving)
    {doc : FlightDocument real} (interchangeable : Interchangeable doc)
    (unchanged : surviving[doc.icao24]? = some doc)
    (order : IterationOrder String) :
    ∃ after, index.insert order doc = some after ∧
      after.vectorsTotal = index.vectorsTotal ∧
      after.graph = index.graph ∧ after.slotVectors = index.slotVectors := by
  obtain ⟨-, place, held⟩ :=
    (aligned.represents.slots.stored _ _).mp unchanged
  have placed := aligned.represents.slots.key_of_docAt held
  obtain ⟨earlier, embedded⟩ := aligned.texts place doc held
  have sameText := (embeddableText_iff_interchangeable doc).mpr
    interchangeable earlier order
  rcases aligned.represents.insert_cases order doc with
    ⟨slot, -, -, inserted⟩ | ⟨slot, text, known, found, changed, -⟩ |
      ⟨unknown, -⟩
  · exact ⟨_, inserted, rfl, rfl, rfl⟩
  · rw [placed, Option.some.injEq] at known
    rw [← known, embedded, Option.some.injEq, sameText] at found
    exact absurd found.symm changed
  · rw [placed] at unknown
    cases unknown

/-- Over a run, embedding is a function of the documents. -/
structure EmbedsContent (engine : VectorEngine)
    (calls : List (IndexCall real)) : Prop where
  text : ∀ doc, .insert doc ∈ calls →
    ∀ order order' : IterationOrder String,
      embeddableText order doc = embeddableText order' doc
  replicas : ∀ passes passes',
    run passes (new : VectorIndex real engine) calls =
      run passes' new calls
  reobserved : ∀ passes order (index : VectorIndex real engine)
    (doc : FlightDocument real),
    run passes new calls = some index →
      (survivingAfter calls)[doc.icao24]? = some doc →
        ∃ after, index.insert order doc = some after ∧
          after.vectorsTotal = index.vectorsTotal ∧
          after.graph = index.graph ∧ after.slotVectors = index.slotVectors

/-- Whatever the embedder and the run: embedding is a function of the documents
exactly if the text values of every inserted document may be written in any
order. -/
theorem embedsContent_iff_interchangeable (engine : VectorEngine)
    (calls : List (IndexCall real)) :
    EmbedsContent engine calls ↔ AllInterchangeable calls := by
  constructor
  · intro embeds doc member
    exact (embeddableText_iff_interchangeable doc).mp (embeds.text doc member)
  · intro interchangeable
    refine ⟨?_, ?_, ?_⟩
    · intro doc member
      exact (embeddableText_iff_interchangeable doc).mpr
        (interchangeable doc member)
    · intro passes passes'
      apply (aligned_empty false).run_of_interchangeable _ interchangeable
      intro aircraft doc found
      simp at found
    · intro passes order index doc reached unchanged
      obtain ⟨index', reached', aligned⟩ := aligned_run engine passes calls
      rw [reached, Option.some.injEq] at reached'
      rw [← reached'] at aligned
      exact aligned.reobserve
        (survivors_interchangeable interchangeable _ _ unchanged) unchanged
        order

/-- The text itself for an embedding. -/
def textEngine : VectorEngine where
  Vector := String
  Quantized := Unit
  Graph := List (String × Nat)
  embed text := text
  quantize _ := ()
  newGraph := []
  insertPoint graph vector slot := graph ++ [(vector, slot)]

/-- An aircraft with two text fields. -/
def labelled : FlightDocument Int :=
  { (default : FlightDocument Int) with
    icao24 := "a"
    text := ((∅ : Std.ExtTreeMap String String).insert "airline" "blue").insert
      "status" "late" }

/-- Two replicas that pass over the fields in different orders embed different
texts, and the same document observed again costs a vector. -/
theorem embedding_depends_on_the_pass :
    embeddableText .asStored labelled ≠ embeddableText .backwards labelled ∧
      ∃ first second again : VectorIndex Int textEngine,
        run (fun _ _ => .asStored) new [.insert labelled] = some first ∧
          run (fun _ _ => .backwards) new [.insert labelled] = some second ∧
          first.slotVectors ≠ second.slotVectors ∧
          first.insert .backwards labelled = some again ∧
          first.vectorsTotal = 1 ∧ again.vectorsTotal = 2 := by
  have forth : embeddableText .asStored labelled = "    blue late" := by
    decide +kernel
  have back : embeddableText .backwards labelled = "    late blue" := by
    decide +kernel
  have reached : ∀ order, run (fun _ _ => order) new [.insert labelled] =
      some ((new : VectorIndex Int textEngine).insertNew order labelled) := by
    intro order
    simp [run, call, VectorIndex.insert, new]
  have seenAgain : ((new : VectorIndex Int textEngine).insertNew .asStored
      labelled).insert .backwards labelled =
        some (((new : VectorIndex Int textEngine).insertNew .asStored
          labelled).reembed 0 labelled (embeddableText .backwards labelled)) := by
    simp [VectorIndex.insert, VectorIndex.insertKnown, VectorIndex.insertNew,
      VectorIndex.reembed, new, assign, forth, back]
  have apart : ["    blue late"] ≠ ["    late blue"] := by
    decide
  refine ⟨by rw [forth, back]; decide, _, _, _, reached .asStored,
    reached .backwards, ?_, seenAgain, rfl, rfl⟩
  rw [← forth, ← back] at apart
  exact apart

end VectorIndex

end AetherEngine.Shard
