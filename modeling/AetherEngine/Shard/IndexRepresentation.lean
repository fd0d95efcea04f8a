import AetherEngine.Shard.InvertedIndex
import Mathlib.Logic.Function.Basic

/-!
# What the keyword index represents

The index represents the documents inserted last and not removed since.  The
representation invariant ties slots, keys, lengths and postings to that map, and
inserting and removing keep it: no operation panics, and no posting, length or
key of another document changes.
-/

namespace AetherEngine.Shard

open AetherEngine.Common
open AetherEngine.Ranking
open AetherEngine.Tables

variable {real : Type}

/-! ## Tokens and frequencies -/

/-- The tokens of a document, the generic text fields in key order. -/
def tokens (rules : TextRules) (doc : FlightDocument real) : List String :=
  tokensOf rules .asStored doc

private theorem tokensOf_perm (rules : TextRules)
    (texts : IterationOrder String)
    (doc : FlightDocument real) :
    (tokensOf rules texts doc).Perm (tokens rules doc) :=
  List.Perm.append_left _ ((texts.perm _).flatMap_right _)

theorem termFreqs_eq (rules : TextRules) (texts : IterationOrder String)
    (doc : FlightDocument real) :
    termFreqs rules texts doc = histogram (tokens rules doc) :=
  histogram_perm (tokensOf_perm rules texts doc)

theorem sum_termFreqs (rules : TextRules) (texts : IterationOrder String)
    (doc : FlightDocument real) :
    ((termFreqs rules texts doc).toList.map Prod.snd).sum =
      (tokens rules doc).length := by
  rw [termFreqs_eq, sum_histogram]

/-! ## Postings -/

/-- A posting list holds, once each, the documents that contain the term. -/
structure Posted (rules : TextRules)
    (docAt : Nat → Option (FlightDocument real)) (term : String)
    (postings : List Posting) : Prop where
  once : (postings.map Posting.docId).Nodup
  listed : ∀ posting, posting ∈ postings ↔
    ∃ doc, docAt posting.docId = some doc ∧
      posting.termFreq = (tokens rules doc).count term ∧
      0 < posting.termFreq

section Postings

variable {rules : TextRules} {docAt : Nat → Option (FlightDocument real)}
variable {term : String} {postings : List Posting}

private theorem Posted.retire (posted : Posted rules docAt term postings)
    (docId : Nat) :
    Posted rules (Function.update docAt docId none) term
      (postings.filter (fun posting => posting.docId ≠ docId)) where
  once := posted.once.sublist (List.filter_sublist.map _)
  listed posting := by
    rw [List.mem_filter, decide_eq_true_eq, posted.listed]
    by_cases same : posting.docId = docId
    · simp [same]
    · simp [same]

/-- The posting a document adds to a term's list, if it contains the term. -/
def postingOf (rules : TextRules) (docId : Nat) (doc : FlightDocument real)
    (term : String) : List Posting :=
  if (tokens rules doc).count term = 0 then
    []
  else
    [⟨docId, (tokens rules doc).count term⟩]

theorem Posted.fill (posted : Posted rules docAt term postings) {docId : Nat}
    (vacant : docAt docId = none) (doc : FlightDocument real) :
    Posted rules (Function.update docAt docId (some doc)) term
      (postings ++ postingOf rules docId doc term) where
  once := by
    rw [List.map_append, List.nodup_append]
    refine ⟨posted.once, ?_, ?_⟩
    · by_cases absent : (tokens rules doc).count term = 0
      · simp [postingOf, absent]
      · simp [postingOf, absent]
    · intro old oldMember new newMember
      obtain ⟨posting, member, rfl⟩ := List.mem_map.mp oldMember
      obtain ⟨added, addedMember, rfl⟩ := List.mem_map.mp newMember
      obtain ⟨holder, held, -⟩ := (posted.listed posting).mp member
      have addedId : added.docId = docId := by
        by_cases absent : (tokens rules doc).count term = 0
        · simp [postingOf, absent] at addedMember
        · simp only [postingOf, absent, if_false, List.mem_singleton]
            at addedMember
          rw [addedMember]
      rw [addedId]
      intro same
      rw [same, vacant] at held
      cases held
  listed posting := by
    rw [List.mem_append, posted.listed]
    by_cases same : posting.docId = docId
    · rw [same, vacant, Function.update_self]
      by_cases absent : (tokens rules doc).count term = 0
      · simp [postingOf, absent]
      · have positive := Nat.pos_of_ne_zero absent
        simp only [postingOf, absent, if_false, List.mem_singleton,
          Option.some.injEq, exists_eq_left', reduceCtorEq, false_and,
          exists_false, false_or]
        constructor
        · intro equality
          subst equality
          exact ⟨rfl, positive⟩
        · intro pair
          rcases pair with ⟨frequency, -⟩
          cases posting
          simp_all
    · rw [Function.update_of_ne same]
      have notAdded : posting ∉ postingOf rules docId doc term := by
        by_cases absent : (tokens rules doc).count term = 0
        · simp [postingOf, absent]
        · simp only [postingOf, absent, if_false, List.mem_singleton]
          intro equality
          subst equality
          exact same rfl
      simp [notAdded]

end Postings

namespace InvertedIndex

theorem bucket_pushPostings (rules : TextRules) (passes : Passes)
    (docId : Nat) (doc : FlightDocument real)
    (postings : Std.ExtTreeMap String (List Posting)) (term : String) :
    bucket (pushPostings passes docId (termFreqs rules passes.texts doc)
        postings) term =
      bucket postings term ++ postingOf rules docId doc term := by
  rw [pushPostings, bucket_foldl_deposit (fun freq => Posting.mk docId freq),
    termFreqs_eq]
  congr 1
  have once :
      ((passes.terms.arrange (histogram (tokens rules doc)).toList).map
        Prod.fst).Nodup :=
    ((passes.terms.perm _).map Prod.fst).nodup_iff.mpr (nodup_keys _)
  by_cases absent : (tokens rules doc).count term = 0
  · have none :
        (passes.terms.arrange (histogram (tokens rules doc)).toList).filter
          (fun entry => entry.1 = term) = [] := by
      rw [List.filter_eq_nil_iff]
      intro finding member same
      rcases finding with ⟨found, count⟩
      rw [IterationOrder.mem_arrange, mem_toList, getElem?_histogram]
        at member
      rw [decide_eq_true_eq] at same
      subst same
      rw [if_pos absent] at member
      cases member
    rw [none, postingOf, if_pos absent, List.map_nil]
  · have listed :
        (term, (tokens rules doc).count term) ∈
          passes.terms.arrange (histogram (tokens rules doc)).toList := by
      rw [IterationOrder.mem_arrange, mem_toList, getElem?_histogram,
        if_neg absent]
    rw [filter_key_eq_singleton once listed, postingOf, if_neg absent,
      List.map_singleton]

/-- Taking out the postings of a document's terms takes out all of its
postings. -/
theorem bucket_removePostings {rules : TextRules}
    {docAt : Nat → Option (FlightDocument real)} (passes : Passes)
    {docId : Nat} {doc : FlightDocument real}
    {postings : Std.ExtTreeMap String (List Posting)} {term : String}
    (posted : Posted rules docAt term (bucket postings term))
    (held : docAt docId = some doc) :
    bucket (removePostings rules passes docId doc postings) term =
      (bucket postings term).filter (fun posting => posting.docId ≠ docId) := by
  have listed :
      term ∈ (passes.terms.arrange
          (termFreqs rules passes.texts doc).toList).map Prod.fst ↔
        0 < (tokens rules doc).count term := by
    rw [((passes.terms.perm _).map Prod.fst).mem_iff, termFreqs_eq,
      List.mem_map]
    constructor
    · intro membership
      rcases membership with ⟨⟨found, count⟩, member, rfl⟩
      rw [mem_toList, getElem?_histogram] at member
      by_cases absent : (tokens rules doc).count found = 0
      · simp [absent] at member
      · exact Nat.pos_of_ne_zero absent
    · intro present
      refine ⟨(term, (tokens rules doc).count term), ?_, rfl⟩
      rw [mem_toList, getElem?_histogram, if_neg present.ne']
  rw [removePostings, bucket_foldl_retain]
  by_cases contained : 0 < (tokens rules doc).count term
  · rw [if_pos (listed.mpr contained)]
  · rw [if_neg (fun member => contained (listed.mp member))]
    symm
    rw [List.filter_eq_self]
    intro posting member
    rw [decide_eq_true_eq]
    intro equality
    subst equality
    obtain ⟨holder, holderHeld, frequency, positive⟩ :=
      (posted.listed posting).mp member
    rw [held, Option.some.injEq] at holderHeld
    rw [frequency, ← holderHeld] at positive
    exact contained positive

end InvertedIndex

/-! ## Slots and keys -/

/-- Keys and slots point at each other, and the slots hold what survives. -/
structure Slots (docAt : Nat → Option (FlightDocument real))
    (byKey : Std.ExtTreeMap String Nat)
    (surviving : Std.ExtTreeMap String (FlightDocument real)) : Prop where
  keyed : ∀ aircraft docId, byKey[aircraft]? = some docId ↔
    ∃ doc, docAt docId = some doc ∧ doc.icao24 = aircraft
  stored : ∀ aircraft doc, surviving[aircraft]? = some doc ↔
    doc.icao24 = aircraft ∧ ∃ docId, docAt docId = some doc

section Slots

variable {docAt : Nat → Option (FlightDocument real)}
variable {byKey : Std.ExtTreeMap String Nat}
variable {surviving : Std.ExtTreeMap String (FlightDocument real)}

theorem Slots.key_of_docAt (slots : Slots docAt byKey surviving) {docId : Nat}
    {doc : FlightDocument real} (held : docAt docId = some doc) :
    byKey[doc.icao24]? = some docId :=
  (slots.keyed doc.icao24 docId).mpr ⟨doc, held, rfl⟩

/-- No two slots hold one aircraft. -/
theorem Slots.docId_eq (slots : Slots docAt byKey surviving)
    {docId docId' : Nat} {doc doc' : FlightDocument real}
    (held : docAt docId = some doc) (held' : docAt docId' = some doc')
    (same : doc.icao24 = doc'.icao24) : docId = docId' := by
  have key := slots.key_of_docAt held
  rw [same, slots.key_of_docAt held', Option.some.injEq] at key
  exact key.symm

theorem Slots.occupy (slots : Slots docAt byKey surviving) {docId : Nat}
    {doc : FlightDocument real}
    (unknown : ∀ other docId', docAt docId' = some other →
      other.icao24 = doc.icao24 → docId' = docId)
    (vacant : ∀ other, docAt docId = some other →
      other.icao24 = doc.icao24) :
    Slots (Function.update docAt docId (some doc))
      (byKey.insert doc.icao24 docId)
      (surviving.insert doc.icao24 doc) where
  keyed aircraft other := by
    rw [getElem?_insert]
    by_cases sameId : other = docId
    · subst sameId
      rw [Function.update_self]
      by_cases sameKey : doc.icao24 = aircraft
      · simp [sameKey]
      · rw [if_neg sameKey, slots.keyed]
        constructor
        · intro holding
          rcases holding with ⟨holder, held, holderIs⟩
          exact absurd ((vacant holder held).symm.trans holderIs) sameKey
        · intro holding
          rcases holding with ⟨holder, held, holderIs⟩
          rw [Option.some.injEq] at held
          exact absurd (held ▸ holderIs) sameKey
    · rw [Function.update_of_ne sameId]
      by_cases sameKey : doc.icao24 = aircraft
      · rw [if_pos sameKey, Option.some.injEq]
        constructor
        · intro same
          exact absurd same.symm sameId
        · intro holding
          rcases holding with ⟨holder, held, holderIs⟩
          exact absurd (unknown holder other held
            (holderIs.trans sameKey.symm)) sameId
      · rw [if_neg sameKey, slots.keyed]
  stored aircraft other := by
    rw [getElem?_insert]
    by_cases sameKey : doc.icao24 = aircraft
    · rw [if_pos sameKey, Option.some.injEq]
      constructor
      · intro equality
        subst equality
        exact ⟨sameKey, docId, Function.update_self ..⟩
      · intro holding
        rcases holding with ⟨otherIs, docId', held⟩
        by_cases sameId : docId' = docId
        · rw [sameId, Function.update_self, Option.some.injEq] at held
          exact held
        · rw [Function.update_of_ne sameId] at held
          exact absurd (unknown other docId' held
            (otherIs.trans sameKey.symm)) sameId
    · rw [if_neg sameKey, slots.stored]
      apply and_congr_right
      intro otherIs
      constructor
      · intro holding
        rcases holding with ⟨docId', held⟩
        refine ⟨docId', ?_⟩
        by_cases sameId : docId' = docId
        · subst sameId
          exact absurd ((vacant other held).symm.trans otherIs) sameKey
        · rwa [Function.update_of_ne sameId]
      · intro holding
        rcases holding with ⟨docId', held⟩
        refine ⟨docId', ?_⟩
        by_cases sameId : docId' = docId
        · rw [sameId, Function.update_self, Option.some.injEq] at held
          exact absurd (held ▸ otherIs) sameKey
        · rwa [Function.update_of_ne sameId] at held

/-- The slot of an aircraft holds its document. -/
theorem Slots.find_eq (slots : Slots docAt byKey surviving)
    (aircraft : String) :
    byKey[aircraft]?.bind docAt = surviving[aircraft]? := by
  apply Option.ext
  intro doc
  rw [Option.bind_eq_some_iff, slots.stored]
  constructor
  · intro holding
    rcases holding with ⟨docId, key, held⟩
    obtain ⟨holder, holderHeld, holderIs⟩ := (slots.keyed _ _).mp key
    rw [held, Option.some.injEq] at holderHeld
    exact ⟨holderHeld ▸ holderIs, docId, held⟩
  · intro holding
    rcases holding with ⟨rfl, docId, held⟩
    exact ⟨docId, slots.key_of_docAt held, held⟩

theorem Slots.byKey_isSome (slots : Slots docAt byKey surviving)
    (aircraft : String) :
    byKey[aircraft]?.isSome = surviving[aircraft]?.isSome := by
  rw [Bool.eq_iff_iff, Option.isSome_iff_exists, Option.isSome_iff_exists]
  constructor
  · intro finding
    rcases finding with ⟨docId, key⟩
    obtain ⟨doc, held, docIs⟩ := (slots.keyed _ _).mp key
    exact ⟨doc, (slots.stored _ _).mpr ⟨docIs, docId, held⟩⟩
  · intro survival
    rcases survival with ⟨doc, survives⟩
    obtain ⟨docIs, docId, held⟩ := (slots.stored _ _).mp survives
    exact ⟨docId, docIs ▸ slots.key_of_docAt held⟩

/-- There are as many keys as survivors. -/
theorem Slots.size_eq (slots : Slots docAt byKey surviving) :
    byKey.size = surviving.size := by
  have sameKeys : byKey.keys.Perm surviving.keys := by
    rw [List.perm_ext_iff_of_nodup Std.ExtTreeMap.nodup_keys
      Std.ExtTreeMap.nodup_keys]
    intro aircraft
    rw [Std.ExtTreeMap.mem_keys, Std.ExtTreeMap.mem_keys,
      Std.ExtTreeMap.mem_iff_isSome_getElem?,
      Std.ExtTreeMap.mem_iff_isSome_getElem?, slots.byKey_isSome]
  rw [← Std.ExtTreeMap.length_keys, sameKeys.length_eq,
    Std.ExtTreeMap.length_keys]

/-- A slot takes another document of its aircraft. -/
theorem Slots.occupyKnown (slots : Slots docAt byKey surviving) {docId : Nat}
    {doc : FlightDocument real} (known : byKey[doc.icao24]? = some docId) :
    Slots (Function.update docAt docId (some doc)) byKey
      (surviving.insert doc.icao24 doc) := by
  obtain ⟨old, held, oldIs⟩ := (slots.keyed _ _).mp known
  -- the key table already sends the aircraft to this slot
  have sameKeys : byKey.insert doc.icao24 docId = byKey := by
    apply Std.ExtTreeMap.ext_getElem?
    intro aircraft
    rw [getElem?_insert]
    by_cases same : doc.icao24 = aircraft
    · rw [if_pos same, ← same, known]
    · rw [if_neg same]
  have occupied := slots.occupy
    (fun other docId' otherHeld same =>
      slots.docId_eq otherHeld held (same.trans oldIs.symm))
    (fun other otherHeld => by
      rw [held, Option.some.injEq] at otherHeld
      rw [← otherHeld, oldIs])
  rwa [sameKeys] at occupied

/-- Where a slot was vacated, the others keep what they hold, under other
keys. -/
theorem Slots.of_vacated (slots : Slots docAt byKey surviving) {docId : Nat}
    {doc : FlightDocument real} (held : docAt docId = some doc)
    {docId' : Nat} {other : FlightDocument real}
    (otherHeld : Function.update docAt docId none docId' = some other) :
    docAt docId' = some other ∧ other.icao24 ≠ doc.icao24 := by
  by_cases sameId : docId' = docId
  · rw [sameId, Function.update_self] at otherHeld
    cases otherHeld
  · rw [Function.update_of_ne sameId] at otherHeld
    exact ⟨otherHeld,
      fun sameKey => sameId (slots.docId_eq otherHeld held sameKey)⟩

theorem Slots.vacate (slots : Slots docAt byKey surviving) {docId : Nat}
    {doc : FlightDocument real} (held : docAt docId = some doc) :
    Slots (Function.update docAt docId none) (byKey.erase doc.icao24)
      (surviving.erase doc.icao24) where
  keyed aircraft other := by
    rw [getElem?_erase]
    by_cases sameKey : doc.icao24 = aircraft
    · rw [if_pos sameKey]
      constructor
      · intro impossible
        contradiction
      · intro holding
        rcases holding with ⟨holder, holderHeld, holderIs⟩
        exact absurd (holderIs.trans sameKey.symm)
          (slots.of_vacated held holderHeld).2
    · rw [if_neg sameKey, slots.keyed]
      by_cases sameId : other = docId
      · subst sameId
        simp only [held, Option.some.injEq, exists_eq_left',
          Function.update_self, reduceCtorEq, false_and, exists_false,
          iff_false]
        exact sameKey
      · rw [Function.update_of_ne sameId]
  stored aircraft other := by
    rw [getElem?_erase]
    by_cases sameKey : doc.icao24 = aircraft
    · rw [if_pos sameKey]
      constructor
      · intro impossible
        contradiction
      · intro holding
        rcases holding with ⟨otherIs, docId', otherHeld⟩
        exact absurd (otherIs.trans sameKey.symm)
          (slots.of_vacated held otherHeld).2
    · rw [if_neg sameKey, slots.stored]
      apply and_congr_right
      intro otherIs
      constructor
      · intro holding
        rcases holding with ⟨docId', otherHeld⟩
        refine ⟨docId', ?_⟩
        by_cases sameId : docId' = docId
        · rw [sameId, held, Option.some.injEq] at otherHeld
          exact absurd (otherHeld ▸ otherIs) sameKey
        · rwa [Function.update_of_ne sameId]
      · intro holding
        rcases holding with ⟨docId', otherHeld⟩
        exact ⟨docId', (slots.of_vacated held otherHeld).1⟩

end Slots

/-! ## The representation invariant -/

/-- The token count of a slot. -/
def slotLen (rules : TextRules) : Option (FlightDocument real) → Nat
  | none => 0
  | some doc => (tokens rules doc).length

namespace InvertedIndex

/-- The document in a slot, if the slot is in use. -/
def docAt (index : InvertedIndex real) (docId : Nat) :
    Option (FlightDocument real) :=
  index.docs[docId]?.join

/-- The index holds exactly the surviving documents. -/
structure Represents (rules : TextRules) (index : InvertedIndex real)
    (surviving : Std.ExtTreeMap String (FlightDocument real)) : Prop where
  slots : Slots index.docAt index.byKey surviving
  freeOnce : index.free.Nodup
  retired : ∀ docId, docId ∈ index.free ↔ index.docs[docId]? = some none
  lengths : index.docLen = index.docs.map (slotLen rules)
  total : index.totalLen = index.docLen.sum
  posted : ∀ term, Posted rules index.docAt term (bucket index.postings term)

theorem represents_new (rules : TextRules) :
    Represents rules (new : InvertedIndex real) ∅ where
  slots := ⟨by simp [new, docAt], by simp [new, docAt]⟩
  freeOnce := List.nodup_nil
  retired := by simp [new]
  lengths := rfl
  total := rfl
  posted term := ⟨by simp [new, bucket], by simp [new, bucket, docAt]⟩

/-! ## Assigning to a slot -/

private theorem sum_set_add {items : List Nat} {slot old : Nat}
    (found : items[slot]? = some old) (value : Nat) :
    (items.set slot value).sum + old = items.sum + value := by
  induction items generalizing slot with
  | nil =>
      simp at found
  | cons head tail inductionHypothesis =>
      cases slot with
      | zero =>
          rw [List.getElem?_cons_zero, Option.some.injEq] at found
          rw [List.set_cons_zero, List.sum_cons, List.sum_cons, found]
          omega
      | succ slot =>
          rw [List.getElem?_cons_succ] at found
          have rest := inductionHypothesis found
          rw [List.set_cons_succ, List.sum_cons, List.sum_cons]
          omega

theorem docAt_of_set {index after : InvertedIndex real} {docId : Nat}
    {value : Option (FlightDocument real)}
    (inside : docId < index.docs.length)
    (changed : after.docs = index.docs.set docId value) :
    after.docAt = Function.update index.docAt docId value := by
  funext other
  rw [docAt, changed]
  by_cases same : other = docId
  · subst same
    rw [Function.update_self, List.getElem?_set_self inside, Option.join_some]
  · rw [Function.update_of_ne same, docAt,
      List.getElem?_set_ne (fun equal => same equal.symm)]

theorem docAt_of_push {index after : InvertedIndex real}
    {doc : FlightDocument real}
    (changed : after.docs = index.docs ++ [some doc]) :
    after.docAt =
      Function.update index.docAt index.docs.length (some doc) := by
  funext other
  rw [docAt, changed]
  by_cases same : other = index.docs.length
  · subst same
    simp
  · rw [Function.update_of_ne same, docAt, getElem?_concat_of_ne same]

theorem docs_of_docAt {index : InvertedIndex real} {docId : Nat}
    {doc : FlightDocument real} (held : index.docAt docId = some doc) :
    index.docs[docId]? = some (some doc) := by
  rw [docAt] at held
  cases found : index.docs[docId]? with
  | none =>
      rw [found] at held
      contradiction
  | some slot =>
      rw [found, Option.join_some] at held
      rw [held]

section Operations

variable {rules : TextRules} {index : InvertedIndex real}
variable {surviving : Std.ExtTreeMap String (FlightDocument real)}

/-- The running total covers every slot. -/
theorem Represents.total_set (represents : Represents rules index surviving)
    {docId : Nat} {slot : Option (FlightDocument real)}
    (found : index.docs[docId]? = some slot)
    (value : Option (FlightDocument real)) :
    index.docLen[docId]? = some (slotLen rules slot) ∧
      checkedSub index.totalLen (slotLen rules slot) =
        some (index.totalLen - slotLen rules slot) ∧
      index.docLen.set docId (slotLen rules value) =
        (index.docs.set docId value).map (slotLen rules) ∧
      index.totalLen - slotLen rules slot + slotLen rules value =
        (index.docLen.set docId (slotLen rules value)).sum := by
  have lengthFound : index.docLen[docId]? = some (slotLen rules slot) := by
    rw [represents.lengths, List.getElem?_map, found]
    rfl
  have cleared := sum_set_add lengthFound 0
  have replaced := sum_set_add lengthFound (slotLen rules value)
  have covered : slotLen rules slot ≤ index.totalLen := by
    rw [represents.total]
    omega
  refine ⟨lengthFound, ?_, ?_, ?_⟩
  · rw [checkedSub, if_pos covered]
  · rw [represents.lengths, List.map_set]
  · rw [represents.total] at covered ⊢
    omega

theorem Represents.insertKnown (represents : Represents rules index surviving)
    (outgoing incoming : Passes) {docId : Nat} {doc : FlightDocument real}
    (known : index.byKey[doc.icao24]? = some docId) :
    ∃ after,
      InvertedIndex.insertKnown rules outgoing incoming index docId doc =
          some after ∧
        Represents rules after (surviving.insert doc.icao24 doc) := by
  obtain ⟨old, held, oldIs⟩ := (represents.slots.keyed _ _).mp known
  have found := docs_of_docAt held
  have inside : docId < index.docs.length :=
    (List.getElem?_eq_some_iff.mp found).1
  obtain ⟨lengthFound, subtracted, lengthsAfter, totalAfter⟩ :=
    represents.total_set found (some doc)
  refine ⟨_, by
    simp only [InvertedIndex.insertKnown, found, lengthFound, subtracted,
      sum_termFreqs, Option.bind_eq_bind, Option.bind_some]
    rfl, ?_⟩
  constructor
  · rw [docAt_of_set inside rfl]
    exact represents.slots.occupyKnown known
  · exact represents.freeOnce
  · intro other
    rw [represents.retired]
    by_cases same : docId = other
    · subst same
      rw [found, List.getElem?_set_self inside]
      simp
    · rw [List.getElem?_set_ne same]
  · exact lengthsAfter
  · exact totalAfter
  · intro term
    have retired := (represents.posted term).retire docId
    rw [← bucket_removePostings outgoing (represents.posted term) held]
      at retired
    have filled := retired.fill (Function.update_self ..) doc
    rw [Function.update_idem] at filled
    rw [docAt_of_set inside rfl, bucket_pushPostings]
    exact filled

/-- A document in an unused slot, for an aircraft that has none. -/
theorem Represents.occupy (represents : Represents rules index surviving)
    {slot : Nat} {doc : FlightDocument real}
    (unknown : index.byKey[doc.icao24]? = none)
    (vacant : index.docAt slot = none) :
    Slots (Function.update index.docAt slot (some doc))
      (index.byKey.insert doc.icao24 slot)
      (surviving.insert doc.icao24 doc) := by
  apply represents.slots.occupy
  · intro other docId held same
    rw [← same, represents.slots.key_of_docAt held] at unknown
    contradiction
  · intro other held
    rw [vacant] at held
    contradiction

theorem Represents.insertNew (represents : Represents rules index surviving)
    (incoming : Passes) {doc : FlightDocument real}
    (unknown : index.byKey[doc.icao24]? = none) :
    ∃ after,
      InvertedIndex.insertNew rules incoming index doc = some after ∧
        Represents rules after (surviving.insert doc.icao24 doc) := by
  cases reusable : index.free.getLast? with
  | some slot =>
      have freeIs := List.dropLast_append_getLast? slot reusable
      have freeOnce := represents.freeOnce
      rw [← freeIs, List.nodup_append] at freeOnce
      have found : index.docs[slot]? = some none :=
        (represents.retired slot).mp (List.mem_of_getLast? reusable)
      have vacant : index.docAt slot = none := by
        rw [docAt, found, Option.join_some]
      have inside : slot < index.docs.length :=
        (List.getElem?_eq_some_iff.mp found).1
      have insideLengths : slot < index.docLen.length := by
        rwa [represents.lengths, List.length_map]
      obtain ⟨-, -, lengthsAfter, totalAfter⟩ :=
        represents.total_set found (some doc)
      refine ⟨_, by
        simp only [InvertedIndex.insertNew, reusable, sum_termFreqs, assign,
          if_pos inside, if_pos insideLengths, Option.bind_eq_bind,
          Option.bind_some]
        rfl, ?_⟩
      constructor
      · rw [docAt_of_set inside rfl]
        exact represents.occupy unknown vacant
      · exact freeOnce.1
      · intro other
        have listed := represents.retired other
        rw [← freeIs, List.mem_append, List.mem_singleton] at listed
        by_cases same : slot = other
        · subst same
          rw [List.getElem?_set_self inside]
          simp only [Option.some.injEq, reduceCtorEq, iff_false]
          intro member
          exact freeOnce.2.2 slot member slot (by simp) rfl
        · rw [List.getElem?_set_ne same, ← listed]
          simp [Ne.symm same]
      · exact lengthsAfter
      · exact totalAfter
      · intro term
        rw [docAt_of_set inside rfl, bucket_pushPostings]
        exact (represents.posted term).fill vacant doc
  | none =>
      have vacant : index.docAt index.docs.length = none := by
        simp [docAt]
      refine ⟨_, by
        simp only [InvertedIndex.insertNew, reusable, sum_termFreqs]
        rfl, ?_⟩
      constructor
      · rw [docAt_of_push rfl]
        exact represents.occupy unknown vacant
      · exact represents.freeOnce
      · intro other
        rw [represents.retired]
        by_cases atEnd : other = index.docs.length
        · subst atEnd
          simp
        · rw [getElem?_concat_of_ne atEnd]
      · rw [represents.lengths, List.map_append, List.map_singleton]
        rfl
      · rw [represents.total, List.sum_append, List.sum_singleton]
      · intro term
        rw [docAt_of_push rfl, bucket_pushPostings]
        exact (represents.posted term).fill vacant doc

/-- Inserting never panics and replaces or adds the aircraft's document. -/
theorem Represents.insert (represents : Represents rules index surviving)
    (outgoing incoming : Passes) (doc : FlightDocument real) :
    ∃ after,
      InvertedIndex.insert rules outgoing incoming index doc = some after ∧
        Represents rules after (surviving.insert doc.icao24 doc) := by
  cases known : index.byKey[doc.icao24]? with
  | some docId =>
      simp only [InvertedIndex.insert, known]
      exact represents.insertKnown outgoing incoming known
  | none =>
      simp only [InvertedIndex.insert, known]
      exact represents.insertNew incoming known

theorem Represents.byKey_isSome (represents : Represents rules index surviving)
    (aircraft : String) :
    index.byKey[aircraft]?.isSome = surviving[aircraft]?.isSome :=
  represents.slots.byKey_isSome aircraft

/-- Removing never panics, drops the aircraft's document and tells whether
there was one. -/
theorem Represents.remove (represents : Represents rules index surviving)
    (outgoing : Passes) (aircraft : String) :
    ∃ after,
      InvertedIndex.remove rules outgoing index aircraft =
          some (after, surviving[aircraft]?.isSome) ∧
        Represents rules after (surviving.erase aircraft) := by
  have present := represents.byKey_isSome aircraft
  cases known : index.byKey[aircraft]? with
  | none =>
      rw [known, Option.isSome_none] at present
      refine ⟨index, ?_, ?_⟩
      · simp only [InvertedIndex.remove, known, ← present]
      · have unchanged : surviving.erase aircraft = surviving := by
          apply Std.ExtTreeMap.ext_getElem?
          intro other
          rw [getElem?_erase]
          by_cases same : aircraft = other
          · subst same
            rw [if_pos rfl]
            exact (Option.isSome_eq_false_iff.mp present.symm |>
              Option.isNone_iff_eq_none.mp).symm
          · rw [if_neg same]
        rw [unchanged]
        exact represents
  | some docId =>
      rw [known, Option.isSome_some] at present
      obtain ⟨doc, held, rfl⟩ := (represents.slots.keyed _ _).mp known
      have found := docs_of_docAt held
      have inside : docId < index.docs.length :=
        (List.getElem?_eq_some_iff.mp found).1
      obtain ⟨lengthFound, subtracted, lengthsAfter, totalAfter⟩ :=
        represents.total_set found none
      refine ⟨_, by
        simp only [InvertedIndex.remove, known, found, lengthFound,
          subtracted, ← present, Option.bind_eq_bind, Option.bind_some]
        rfl, ?_⟩
      constructor
      · rw [docAt_of_set inside rfl]
        exact represents.slots.vacate held
      · rw [List.nodup_append]
        refine ⟨represents.freeOnce, List.nodup_singleton _, ?_⟩
        intro old oldMember new newMember same
        rw [List.mem_singleton] at newMember
        rw [same, newMember, represents.retired, found] at oldMember
        simp at oldMember
      · intro other
        rw [List.mem_append, List.mem_singleton, represents.retired]
        by_cases same : docId = other
        · subst same
          rw [List.getElem?_set_self inside]
          simp
        · rw [List.getElem?_set_ne same]
          simp [Ne.symm same]
      · exact lengthsAfter
      · exact totalAfter
      · intro term
        rw [docAt_of_set inside rfl,
          bucket_removePostings outgoing (represents.posted term) held]
        exact (represents.posted term).retire docId

end Operations

end InvertedIndex

end AetherEngine.Shard
