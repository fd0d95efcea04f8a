import AetherEngine.Shard.IndexSearch

/-!
# The invariant of the keyword index

Every index that inserts and removals build keeps its slots, keys, lengths and
postings in step, with no posting too many and no posting list left empty.  No
call on such an index panics.
-/

namespace AetherEngine.Shard

open AetherEngine.Common
open AetherEngine.Ranking
open AetherEngine.Tables

variable {real : Type}

namespace InvertedIndex

/-- What holds of the fields of an index between two calls. -/
structure WellKept (rules : TextRules) (index : InvertedIndex real) :
    Prop where
  /-- A key points at the slot that holds a document of that key. -/
  keyed : ∀ (key : String) (slot : Nat), index.byKey[key]? = some slot ↔
    ∃ doc : FlightDocument real,
      index.docs[slot]? = some (some doc) ∧ doc.icao24 = key
  /-- Every live slot has one key. -/
  keyedOnce : ∀ (slot : Nat) (doc : FlightDocument real),
    index.docs[slot]? = some (some doc) →
      ∃! key : String, index.byKey[key]? = some slot
  freeOnce : index.free.Nodup
  retired : ∀ slot : Nat, slot ∈ index.free ↔ index.docs[slot]? = some none
  /-- A term of a live document has one posting of it. -/
  postedOnce : ∀ (slot : Nat) (doc : FlightDocument real) (term : String),
    index.docs[slot]? = some (some doc) → term ∈ tokens rules doc →
      (bucket index.postings term).filter
          (fun posting => posting.docId = slot) =
        [⟨slot, (tokens rules doc).count term⟩]
  /-- There is no other posting. -/
  postedLive : ∀ term : String, ∀ posting ∈ bucket index.postings term,
    ∃ doc : FlightDocument real,
      index.docs[posting.docId]? = some (some doc) ∧ term ∈ tokens rules doc
  noEmptyList : NoEmptyBucket index.postings
  oneLength : index.docLen.length = index.docs.length
  liveLength : ∀ (slot : Nat) (doc : FlightDocument real),
    index.docs[slot]? = some (some doc) →
      index.docLen[slot]? = some (tokens rules doc).length
  retiredLength : ∀ slot : Nat, index.docs[slot]? = some none →
    index.docLen[slot]? = some 0
  total : index.totalLen = index.docLen.sum

/-! ## No list is left empty -/

private theorem noEmptyBucket_removePostings (rules : TextRules)
    (passes : Passes)
    (docId : Nat) (doc : FlightDocument real)
    {postings : Std.ExtTreeMap String (List Posting)}
    (filled : NoEmptyBucket postings) :
    NoEmptyBucket (removePostings rules passes docId doc postings) :=
  List.foldlRecOn _ _ filled
    (fun _ kept term _ => noEmptyBucket_retain kept _ term)

theorem noEmptyBucket_pushPostings (passes : Passes) (docId : Nat)
    (freqs : Std.ExtTreeMap String Nat)
    {postings : Std.ExtTreeMap String (List Posting)}
    (filled : NoEmptyBucket postings) :
    NoEmptyBucket (pushPostings passes docId freqs postings) :=
  List.foldlRecOn _ _ filled
    (fun _ kept entry _ => noEmptyBucket_deposit kept entry.1 _)

private theorem noEmptyBucket_insert {rules : TextRules}
    {outgoing incoming : Passes}
    {index after : InvertedIndex real} {doc : FlightDocument real}
    (inserted : index.insert rules outgoing incoming doc = some after)
    (filled : NoEmptyBucket index.postings) :
    NoEmptyBucket after.postings := by
  unfold insert at inserted
  split at inserted
  · simp only [insertKnown, Option.bind_eq_bind, Option.bind_eq_some_iff,
      Option.some.injEq] at inserted
    obtain ⟨slot, -, old, -, oldLen, -, others, -, rfl⟩ := inserted
    exact noEmptyBucket_pushPostings _ _ _
      (noEmptyBucket_removePostings _ _ _ _ filled)
  · unfold insertNew at inserted
    simp only at inserted
    split at inserted
    · simp only [Option.bind_eq_bind, Option.bind_eq_some_iff,
        Option.some.injEq] at inserted
      obtain ⟨docs, -, docLen, -, rfl⟩ := inserted
      exact noEmptyBucket_pushPostings _ _ _ filled
    · rw [Option.some.injEq] at inserted
      subst inserted
      exact noEmptyBucket_pushPostings _ _ _ filled

private theorem noEmptyBucket_remove {rules : TextRules} {outgoing : Passes}
    {index after : InvertedIndex real} {icao24 : String} {present : Bool}
    (removed : index.remove rules outgoing icao24 = some (after, present))
    (filled : NoEmptyBucket index.postings) :
    NoEmptyBucket after.postings := by
  unfold remove at removed
  split at removed
  · rw [Option.some.injEq, Prod.mk.injEq] at removed
    rw [← removed.1]
    exact filled
  · simp only [Option.bind_eq_bind, Option.bind_eq_some_iff,
      Option.some.injEq, Prod.mk.injEq] at removed
    obtain ⟨slot, -, doc, -, oldLen, -, others, -, rfl, -⟩ := removed
    exact noEmptyBucket_removePostings _ _ _ _ filled

end InvertedIndex

private theorem noEmptyBucket_apply {rules : TextRules}
    {index after : InvertedIndex real} {change : IndexChange real}
    (applied : change.apply rules index = some after)
    (filled : NoEmptyBucket index.postings) :
    NoEmptyBucket after.postings := by
  cases change with
  | insert outgoing incoming doc =>
      exact InvertedIndex.noEmptyBucket_insert applied filled
  | remove outgoing icao24 =>
      rw [IndexChange.apply, Option.map_eq_some_iff] at applied
      obtain ⟨⟨next, present⟩, removed, rfl⟩ := applied
      exact InvertedIndex.noEmptyBucket_remove removed filled

private theorem noEmptyBucket_buildIndex {rules : TextRules}
    {changes : List (IndexChange real)} {index : InvertedIndex real}
    (built : buildIndex rules changes = some index) :
    NoEmptyBucket index.postings := by
  have kept : ∀ (rest : List (IndexChange real))
      (before : InvertedIndex real), NoEmptyBucket before.postings →
        rest.foldlM (IndexChange.apply rules) before = some index →
          NoEmptyBucket index.postings := by
    intro rest
    induction rest with
    | nil =>
        intro before filled finished
        rw [List.foldlM_nil, Option.pure_def, Option.some.injEq] at finished
        rw [← finished]
        exact filled
    | cons change rest inductionHypothesis =>
        intro before filled finished
        rw [List.foldlM_cons, Option.bind_eq_bind,
          Option.bind_eq_some_iff] at finished
        obtain ⟨next, applied, later⟩ := finished
        exact inductionHypothesis next (noEmptyBucket_apply applied filled)
          later
  refine kept changes InvertedIndex.new ?_ built
  intro term
  simp [InvertedIndex.new]

/-! ## Every reachable index -/

namespace InvertedIndex

section Represents

variable {rules : TextRules} {index : InvertedIndex real}
variable {surviving : Std.ExtTreeMap String (FlightDocument real)}

theorem docAt_eq_some_iff {docId : Nat} {doc : FlightDocument real} :
    index.docAt docId = some doc ↔ index.docs[docId]? = some (some doc) := by
  constructor
  · exact docs_of_docAt
  · intro found
    rw [docAt, found, Option.join_some]

/-- An index that represents documents, without an empty posting list, is well
kept. -/
theorem Represents.wellKept (represents : Represents rules index surviving)
    (filled : NoEmptyBucket index.postings) : WellKept rules index where
  keyed key slot := by
    rw [represents.slots.keyed]
    simp only [docAt_eq_some_iff]
  keyedOnce slot doc live := by
    refine ⟨doc.icao24, represents.slots.key_of_docAt
      (docAt_eq_some_iff.mpr live), ?_⟩
    intro key known
    obtain ⟨holder, held, rfl⟩ := (represents.slots.keyed key slot).mp known
    rw [docAt_eq_some_iff, live, Option.some.injEq, Option.some.injEq] at held
    rw [held]
  freeOnce := represents.freeOnce
  retired := represents.retired
  postedOnce slot doc term live present := by
    have posted := represents.posted term
    have positive : 0 < (tokens rules doc).count term :=
      List.count_pos_iff.mpr present
    have listed : (⟨slot, (tokens rules doc).count term⟩ : Posting) ∈
        bucket index.postings term :=
      (posted.listed _).mpr
        ⟨doc, docAt_eq_some_iff.mpr live, rfl, positive⟩
    exact filter_keyOf_eq_singleton posted.once listed
  postedLive term posting member := by
    obtain ⟨doc, held, frequency, positive⟩ :=
      ((represents.posted term).listed posting).mp member
    rw [frequency] at positive
    exact ⟨doc, docAt_eq_some_iff.mp held, List.count_pos_iff.mp positive⟩
  noEmptyList := filled
  oneLength := by
    rw [represents.lengths, List.length_map]
  liveLength slot doc live := by
    rw [represents.lengths, List.getElem?_map, live]
    rfl
  retiredLength slot vacant := by
    rw [represents.lengths, List.getElem?_map, vacant]
    rfl
  total := represents.total

end Represents

end InvertedIndex

/-- Over every run of inserts and removals the index is built without a panic
and well kept, and no call on it panics. -/
theorem index_well_kept [LinearOrder real] (rules : TextRules)
    (changes : List (IndexChange real)) :
    ∃ index, buildIndex rules changes = some index ∧
      index.WellKept rules ∧
      (∀ change : IndexChange real, (change.apply rules index).isSome) ∧
      ∀ arith order query limit,
        (index.search rules arith order query limit).isSome := by
  obtain ⟨index, built, represents⟩ := represents_buildIndex rules changes
  refine ⟨index, built,
    represents.wellKept (noEmptyBucket_buildIndex built), ?_, ?_⟩
  · intro change
    obtain ⟨after, applied, -⟩ := represents_apply represents change
    rw [applied, Option.isSome_some]
  · intro arith order query limit
    rw [represents.search arith order query limit, Option.isSome_some]

end AetherEngine.Shard
