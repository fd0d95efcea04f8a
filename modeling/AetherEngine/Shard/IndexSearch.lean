import AetherEngine.Shard.IndexRepresentation

/-!
# Search is a scan

A search over the index returns what a scan of the surviving documents returns:
the documents with at least one query term, each scored by the same formula
from counts taken over the survivors, in the same order and cut to the same
limit.
-/

namespace AetherEngine.Shard

open AetherEngine.Common
open AetherEngine.Ranking
open AetherEngine.Tables

variable {real : Type}

/-! ## Runs of changes -/

/-- A call that changes an index, with the orders of its passes. -/
inductive IndexChange (real : Type) where
  | insert (outgoing incoming : Passes) (doc : FlightDocument real)
  | remove (outgoing : Passes) (icao24 : String)

namespace IndexChange

/-- The change as the index makes it. -/
def apply (rules : TextRules) (index : InvertedIndex real) :
    IndexChange real → Option (InvertedIndex real)
  | .insert outgoing incoming doc => index.insert rules outgoing incoming doc
  | .remove outgoing icao24 =>
      (index.remove rules outgoing icao24).map Prod.fst

/-- The change as a plain map makes it. -/
def settle (surviving : Std.ExtTreeMap String (FlightDocument real)) :
    IndexChange real → Std.ExtTreeMap String (FlightDocument real)
  | .insert _ _ doc => surviving.insert doc.icao24 doc
  | .remove _ icao24 => surviving.erase icao24

end IndexChange

/-- The index after a run of changes. -/
def buildIndex (rules : TextRules) (changes : List (IndexChange real)) :
    Option (InvertedIndex real) :=
  changes.foldlM (IndexChange.apply rules) InvertedIndex.new

/-- The documents inserted last and not removed since. -/
def survivors (changes : List (IndexChange real)) :
    Std.ExtTreeMap String (FlightDocument real) :=
  changes.foldl IndexChange.settle ∅

theorem represents_apply {rules : TextRules} {index : InvertedIndex real}
    {surviving : Std.ExtTreeMap String (FlightDocument real)}
    (represents : index.Represents rules surviving)
    (change : IndexChange real) :
    ∃ after, change.apply rules index = some after ∧
      after.Represents rules (change.settle surviving) := by
  cases change with
  | insert outgoing incoming doc =>
      exact represents.insert outgoing incoming doc
  | remove outgoing icao24 =>
      obtain ⟨after, removed, kept⟩ := represents.remove outgoing icao24
      refine ⟨after, ?_, kept⟩
      rw [IndexChange.apply, removed, Option.map_some]

private theorem represents_foldlM {rules : TextRules}
    {index : InvertedIndex real}
    {surviving : Std.ExtTreeMap String (FlightDocument real)}
    (represents : index.Represents rules surviving)
    (changes : List (IndexChange real)) :
    ∃ after, changes.foldlM (IndexChange.apply rules) index = some after ∧
      after.Represents rules (changes.foldl IndexChange.settle surviving) := by
  induction changes generalizing index surviving with
  | nil =>
      exact ⟨index, rfl, represents⟩
  | cons change rest inductionHypothesis =>
      obtain ⟨next, applied, kept⟩ := represents_apply represents change
      obtain ⟨after, finished, final⟩ := inductionHypothesis kept
      refine ⟨after, ?_, final⟩
      rw [List.foldlM_cons, applied]
      exact finished

/-- After every run of changes the index represents the survivors. -/
theorem represents_buildIndex (rules : TextRules)
    (changes : List (IndexChange real)) :
    ∃ index, buildIndex rules changes = some index ∧
      index.Represents rules (survivors changes) :=
  represents_foldlM (InvertedIndex.represents_new rules) changes

/-! ## The scan -/

/-- The surviving documents. -/
def liveDocs (surviving : Std.ExtTreeMap String (FlightDocument real)) :
    List (FlightDocument real) :=
  surviving.toList.map Prod.snd

/-- The terms of a query without repetitions, in order of first occurrence. -/
def distinctTerms : List String → List String → List String
  | [], _ => []
  | term :: rest, seenTerms =>
      if term ∈ seenTerms then
        distinctTerms rest seenTerms
      else
        term :: distinctTerms rest (term :: seenTerms)

/-- The score of a document: the contributions of the query terms it contains,
with all counts taken over a list of documents. -/
def scanScore [LinearOrder real] (rules : TextRules)
    (arith : Arithmetic real) (live : List (FlightDocument real))
    (terms : List String) (doc : FlightDocument real) : real :=
  (terms.filter (fun term => term ∈ tokens rules doc)).foldl
    (fun score term =>
      arith.add score
        (arith.contribution live.length
          (live.map (fun other => (tokens rules other).length)).sum
          (live.countP (fun other => term ∈ tokens rules other))
          ((tokens rules doc).count term)
          (tokens rules doc).length))
    (arith.ofNat 0)

/-- Scan the surviving documents for a query. -/
def scan [LinearOrder real] (rules : TextRules) (arith : Arithmetic real)
    (surviving : Std.ExtTreeMap String (FlightDocument real))
    (query : String) (limit : Nat) : SearchResults real :=
  let live := liveDocs surviving
  let terms := distinctTerms (tokenize rules query) []
  let found := live.filter
    (fun doc => terms.any (fun term => term ∈ tokens rules doc))
  { totalMatched := found.length
    hits := truncate limit (sortScored (found.map
      (fun doc => ⟨doc, scanScore rules arith live terms doc⟩))) }

theorem cmpScored_trans [LinearOrder real] (first second third : ScoredHit real) :
    (cmpScored first second).isLE = true →
      (cmpScored second third).isLE = true →
        (cmpScored first third).isLE = true :=
  cmpScoreKey_trans (first.score, first.doc.icao24)
    (second.score, second.doc.icao24) (third.score, third.doc.icao24)

theorem cmpScored_total [LinearOrder real] (first second : ScoredHit real) :
    ((cmpScored first second).isLE || (cmpScored second first).isLE) = true :=
  cmpScoreKey_total (first.score, first.doc.icao24)
    (second.score, second.doc.icao24)

/-! ## Counts over the survivors -/

namespace InvertedIndex

section Counts

variable {rules : TextRules} {index : InvertedIndex real}
variable {surviving : Std.ExtTreeMap String (FlightDocument real)}

theorem mem_documents {index : InvertedIndex real}
    {doc : FlightDocument real} :
    doc ∈ index.documents ↔ ∃ docId, index.docAt docId = some doc := by
  rw [documents, List.mem_filterMap]
  constructor
  · intro membership
    rcases membership with ⟨slot, member, rfl⟩
    obtain ⟨docId, found⟩ := List.mem_iff_getElem?.mp member
    exact ⟨docId, by rw [docAt, found]; rfl⟩
  · intro holding
    rcases holding with ⟨docId, held⟩
    exact ⟨some doc, List.mem_iff_getElem?.mpr ⟨docId, docs_of_docAt held⟩,
      rfl⟩

theorem Represents.documents_once (represents : index.Represents rules surviving) :
    (index.documents.map FlightDocument.icao24).Nodup := by
  rw [List.Nodup, List.pairwise_map, documents, List.pairwise_filterMap,
    List.pairwise_iff_getElem]
  intro first second firstInside secondInside before doc docIs other otherIs
    same
  have held : index.docAt first = some doc := by
    rw [docAt, List.getElem?_eq_getElem firstInside, Option.join_some]
    exact docIs
  have otherHeld : index.docAt second = some other := by
    rw [docAt, List.getElem?_eq_getElem secondInside, Option.join_some]
    exact otherIs
  have equal := represents.slots.docId_eq held otherHeld same
  omega

theorem mem_liveDocs (represents : index.Represents rules surviving)
    {doc : FlightDocument real} :
    doc ∈ liveDocs surviving ↔ ∃ docId, index.docAt docId = some doc := by
  rw [liveDocs, List.mem_map]
  constructor
  · intro membership
    rcases membership with ⟨⟨aircraft, found⟩, member, rfl⟩
    rw [mem_toList] at member
    exact ((represents.slots.stored _ _).mp member).2
  · intro held
    exact ⟨(doc.icao24, doc),
      (mem_toList ..).mpr ((represents.slots.stored _ _).mpr ⟨rfl, held⟩), rfl⟩

theorem Represents.liveDocs_once (represents : index.Represents rules surviving) :
    ((liveDocs surviving).map FlightDocument.icao24).Nodup := by
  have keys :
      (liveDocs surviving).map FlightDocument.icao24 =
        surviving.toList.map Prod.fst := by
    rw [liveDocs, List.map_map]
    apply List.map_congr_left
    intro pair member
    rcases pair with ⟨aircraft, doc⟩
    rw [mem_toList] at member
    exact ((represents.slots.stored _ _).mp member).1
  rw [keys]
  exact nodup_keys surviving

/-- The stored documents are the survivors. -/
theorem Represents.documents_perm (represents : index.Represents rules surviving) :
    index.documents.Perm (liveDocs surviving) := by
  rw [List.perm_ext_iff_of_nodup
    (List.Nodup.of_map _ represents.documents_once)
    (List.Nodup.of_map _ represents.liveDocs_once)]
  intro doc
  rw [mem_documents, mem_liveDocs represents]

/-- The key table has one entry for each survivor. -/
theorem Represents.len_eq (represents : index.Represents rules surviving) :
    index.len = (liveDocs surviving).length := by
  have keys :
      (index.byKey.toList.map Prod.fst).Perm
        ((liveDocs surviving).map FlightDocument.icao24) := by
    rw [List.perm_ext_iff_of_nodup (nodup_keys _) represents.liveDocs_once]
    intro aircraft
    rw [List.mem_map, List.mem_map]
    constructor
    · intro membership
      rcases membership with ⟨⟨key, docId⟩, member, rfl⟩
      rw [mem_toList] at member
      obtain ⟨doc, held, docIs⟩ := (represents.slots.keyed _ _).mp member
      exact ⟨doc, (mem_liveDocs represents).mpr ⟨docId, held⟩, docIs⟩
    · intro membership
      rcases membership with ⟨doc, member, rfl⟩
      obtain ⟨docId, held⟩ := (mem_liveDocs represents).mp member
      exact ⟨(doc.icao24, docId),
        (mem_toList ..).mpr (represents.slots.key_of_docAt held), rfl⟩
  have sameLength := keys.length_eq
  rw [List.length_map, List.length_map, Std.ExtTreeMap.length_toList]
    at sameLength
  exact sameLength

/-- The running total is the token count of the survivors. -/
theorem Represents.totalLen_eq (represents : index.Represents rules surviving) :
    index.totalLen =
      ((liveDocs surviving).map
        (fun doc => (tokens rules doc).length)).sum := by
  have slots :
      ∀ docs : List (Option (FlightDocument real)),
        (docs.map (slotLen rules)).sum =
          ((docs.filterMap id).map
            (fun doc => (tokens rules doc).length)).sum := by
    intro docs
    induction docs with
    | nil =>
        rfl
    | cons slot rest inductionHypothesis =>
        cases slot with
        | none =>
            simpa [slotLen] using inductionHypothesis
        | some doc =>
            simpa [slotLen] using inductionHypothesis
  rw [represents.total, represents.lengths, slots]
  exact (represents.documents_perm.map _).sum_eq

/-- The length of a posting list is the document frequency. -/
theorem Represents.length_bucket (represents : index.Represents rules surviving)
    (term : String) :
    (bucket index.postings term).length =
      (liveDocs surviving).countP (fun doc => term ∈ tokens rules doc) := by
  have posted := represents.posted term
  generalize bucket index.postings term = postings at posted
  have slotOf :
      ∀ docId doc, index.docAt docId = some doc →
        index.byKey[doc.icao24]?.getD 0 = docId := by
    intro docId doc held
    rw [represents.slots.key_of_docAt held, Option.getD_some]
  have slots :
      (postings.map Posting.docId).Perm
        (((liveDocs surviving).filter
          (fun doc => term ∈ tokens rules doc)).map
            (fun doc => index.byKey[doc.icao24]?.getD 0)) := by
    rw [List.perm_ext_iff_of_nodup posted.once]
    · intro docId
      rw [List.mem_map, List.mem_map]
      constructor
      · intro membership
        rcases membership with ⟨posting, member, rfl⟩
        obtain ⟨doc, held, frequency, positive⟩ :=
          (posted.listed posting).mp member
        refine ⟨doc, ?_, slotOf posting.docId doc held⟩
        rw [List.mem_filter, mem_liveDocs represents, decide_eq_true_eq,
          ← List.count_pos_iff, ← frequency]
        exact ⟨⟨posting.docId, held⟩, positive⟩
      · intro membership
        rcases membership with ⟨doc, member, rfl⟩
        rw [List.mem_filter, mem_liveDocs represents, decide_eq_true_eq,
          ← List.count_pos_iff] at member
        obtain ⟨⟨docId, held⟩, contained⟩ := member
        rw [slotOf docId doc held]
        exact ⟨⟨docId, (tokens rules doc).count term⟩,
          (posted.listed _).mpr ⟨doc, held, rfl, contained⟩, rfl⟩
    · apply List.Nodup.map_on
      · intro doc member other otherMember same
        obtain ⟨docId, held⟩ :=
          (mem_liveDocs represents).mp (List.mem_of_mem_filter member)
        obtain ⟨docId', held'⟩ :=
          (mem_liveDocs represents).mp (List.mem_of_mem_filter otherMember)
        rw [slotOf docId doc held, slotOf docId' other held'] at same
        rw [same, held', Option.some.injEq] at held
        exact held.symm
      · exact (List.Nodup.of_map _ represents.liveDocs_once).filter _
  have sameLength := slots.length_eq
  rw [List.length_map, List.length_map] at sameLength
  rw [sameLength, List.countP_eq_length_filter]

private theorem Represents.docLen_eq
    (represents : index.Represents rules surviving)
    {docId : Nat} {doc : FlightDocument real}
    (held : index.docAt docId = some doc) :
    index.docLen[docId]? = some (tokens rules doc).length := by
  rw [represents.lengths, List.getElem?_map, docs_of_docAt held]
  rfl

end Counts

/-! ## Scores -/

section Scores

variable [LinearOrder real]
variable {rules : TextRules} {index : InvertedIndex real}
variable {surviving : Std.ExtTreeMap String (FlightDocument real)}

omit [LinearOrder real] in
theorem getElem?_addScore (arith : Arithmetic real)
    (scores : Std.ExtTreeMap Nat real) (docId other : Nat) (amount : real) :
    (addScore arith scores docId amount)[other]? =
      if docId = other then
        some (arith.add (scores[docId]?.getD (arith.ofNat 0)) amount)
      else
        scores[other]? := by
  rw [addScore, getElem?_alter]

omit [LinearOrder real] in
/-- Scoring a posting list adds one amount to each document in it and leaves
the others alone. -/
theorem foldlM_addScore (arith : Arithmetic real) (amount : Posting → Option real)
    {postings : List Posting} (once : (postings.map Posting.docId).Nodup)
    (priced : ∀ posting ∈ postings, ∃ value, amount posting = some value)
    (scores : Std.ExtTreeMap Nat real) :
    ∃ after,
      postings.foldlM
          (fun scores posting => do
            let value ← amount posting
            some (addScore arith scores posting.docId value)) scores =
        some after ∧
      (∀ posting ∈ postings, ∀ value, amount posting = some value →
        after[posting.docId]? =
          some (arith.add (scores[posting.docId]?.getD (arith.ofNat 0))
            value)) ∧
      ∀ docId ∉ postings.map Posting.docId, after[docId]? = scores[docId]? := by
  induction postings generalizing scores with
  | nil =>
      exact ⟨scores, rfl, by simp, by simp⟩
  | cons posting rest inductionHypothesis =>
      rw [List.map_cons, List.nodup_cons] at once
      obtain ⟨value, price⟩ := priced posting (by simp)
      obtain ⟨after, run, scored, untouched⟩ := inductionHypothesis once.2
        (fun other member => priced other (by simp [member]))
        (addScore arith scores posting.docId value)
      refine ⟨after, ?_, ?_, ?_⟩
      · rw [List.foldlM_cons, price]
        exact run
      · intro other member otherValue otherPrice
        rcases List.mem_cons.mp member with rfl | later
        · rw [untouched _ once.1, getElem?_addScore, if_pos rfl]
          rw [price, Option.some.injEq] at otherPrice
          rw [otherPrice]
        · have different : posting.docId ≠ other.docId := fun same =>
            once.1 (same ▸ List.mem_map_of_mem later)
          rw [scored other later otherValue otherPrice, getElem?_addScore,
            if_neg different]
      · intro docId absent
        rw [List.map_cons, List.mem_cons, not_or] at absent
        rw [untouched docId absent.2, getElem?_addScore,
          if_neg (Ne.symm absent.1)]

/-- What a term does to the score of a document. -/
def scoreStep (rules : TextRules) (arith : Arithmetic real)
    (live : List (FlightDocument real)) (doc : FlightDocument real)
    (score : Option real) (term : String) : Option real :=
  if term ∈ tokens rules doc then
    some (arith.add (score.getD (arith.ofNat 0))
      (arith.contribution live.length
        (live.map (fun other => (tokens rules other).length)).sum
        (live.countP (fun other => term ∈ tokens rules other))
        ((tokens rules doc).count term)
        (tokens rules doc).length))
  else
    score

theorem Represents.scoreTerm (represents : index.Represents rules surviving)
    (arith : Arithmetic real) (scores : Std.ExtTreeMap Nat real)
    (term : String) :
    ∃ after,
      InvertedIndex.scoreTerm arith index scores term = some after ∧
      ∀ docId, after[docId]? =
        match index.docAt docId with
        | some doc =>
            scoreStep rules arith (liveDocs surviving) doc scores[docId]? term
        | none => scores[docId]? := by
  have posted := represents.posted term
  have frequency := represents.length_bucket term
  have collected :
      InvertedIndex.scoreTerm arith index scores term =
        (bucket index.postings term).foldlM
          (fun scores posting => do
            let value ← (index.docLen[posting.docId]?).map
              (fun dl => arith.contribution index.byKey.size index.totalLen
                (bucket index.postings term).length posting.termFreq dl)
            some (addScore arith scores posting.docId value)) scores := by
    cases found : index.postings[term]? with
    | none =>
        simp [InvertedIndex.scoreTerm, bucket, found]
    | some postings =>
        simp only [InvertedIndex.scoreTerm, bucket, found, Option.getD_some]
        congr 1
        funext scores posting
        cases index.docLen[posting.docId]? with
        | none =>
            rfl
        | some dl =>
            rfl
  have size : index.byKey.size = (liveDocs surviving).length :=
    represents.len_eq
  rw [collected, size, represents.totalLen_eq, frequency]
  generalize bucket index.postings term = postings at posted
  obtain ⟨after, run, scored, untouched⟩ := foldlM_addScore arith
    (fun posting => (index.docLen[posting.docId]?).map
      (fun dl => arith.contribution (liveDocs surviving).length
        ((liveDocs surviving).map
          (fun doc => (tokens rules doc).length)).sum
        ((liveDocs surviving).countP
          (fun doc => term ∈ tokens rules doc)) posting.termFreq dl))
    posted.once
    (fun posting member => by
      obtain ⟨doc, held, -⟩ := (posted.listed posting).mp member
      exact ⟨_, by rw [represents.docLen_eq held, Option.map_some]⟩)
    scores
  refine ⟨after, run, ?_⟩
  intro docId
  cases held : index.docAt docId with
  | none =>
      apply untouched
      intro member
      obtain ⟨posting, postingMember, rfl⟩ := List.mem_map.mp member
      obtain ⟨doc, holds, -⟩ := (posted.listed posting).mp postingMember
      rw [held] at holds
      contradiction
  | some doc =>
      simp only [scoreStep]
      by_cases contained : term ∈ tokens rules doc
      · rw [if_pos contained]
        have listed :
            (⟨docId, (tokens rules doc).count term⟩ : Posting) ∈
              postings :=
          (posted.listed _).mpr
            ⟨doc, held, rfl, List.count_pos_iff.mpr contained⟩
        exact scored _ listed _
          (by rw [represents.docLen_eq held, Option.map_some])
      · rw [if_neg contained]
        apply untouched
        intro member
        obtain ⟨posting, postingMember, rfl⟩ := List.mem_map.mp member
        obtain ⟨holder, holds, count, positive⟩ :=
          (posted.listed posting).mp postingMember
        rw [held, Option.some.injEq] at holds
        rw [count, ← holds, List.count_pos_iff] at positive
        exact contained positive

theorem Represents.scoreTerms (represents : index.Represents rules surviving)
    (arith : Arithmetic real) (terms seenTerms : List String)
    (scores : Std.ExtTreeMap Nat real) :
    ∃ after,
      InvertedIndex.scoreTerms arith index terms seenTerms scores =
          some after ∧
      ∀ docId, after[docId]? =
        match index.docAt docId with
        | some doc =>
            (distinctTerms terms seenTerms).foldl
              (scoreStep rules arith (liveDocs surviving) doc) scores[docId]?
        | none => scores[docId]? := by
  induction terms generalizing seenTerms scores with
  | nil =>
      refine ⟨scores, rfl, fun docId => ?_⟩
      cases index.docAt docId with
      | none =>
          rfl
      | some doc =>
          rfl
  | cons term rest inductionHypothesis =>
      by_cases seen : term ∈ seenTerms
      · simp only [InvertedIndex.scoreTerms, distinctTerms, if_pos seen]
        exact inductionHypothesis seenTerms scores
      · obtain ⟨next, scoredTerm, nextIs⟩ :=
          represents.scoreTerm arith scores term
        obtain ⟨after, scoredRest, afterIs⟩ :=
          inductionHypothesis (term :: seenTerms) next
        refine ⟨after, ?_, fun docId => ?_⟩
        · simp only [InvertedIndex.scoreTerms, if_neg seen, scoredTerm,
            Option.bind_eq_bind, Option.bind_some]
          exact scoredRest
        · rw [afterIs docId, nextIs docId]
          cases index.docAt docId with
          | none =>
              rfl
          | some doc =>
              simp only [distinctTerms, if_neg seen, List.foldl_cons]

/-- A document gets a score exactly when it contains a term. -/
theorem foldl_scoreStep (arith : Arithmetic real)
    (live : List (FlightDocument real)) (terms : List String)
    (doc : FlightDocument real) :
    terms.foldl (scoreStep rules arith live doc) none =
      if terms.any (fun term => term ∈ tokens rules doc) then
        some (scanScore rules arith live terms doc)
      else
        none := by
  have folded :
      ∀ score : Option real,
        terms.foldl (scoreStep rules arith live doc) score =
          if terms.any (fun term => term ∈ tokens rules doc) then
            some ((terms.filter (fun term => term ∈ tokens rules doc)).foldl
              (fun score term =>
                arith.add score
                  (arith.contribution live.length
                    (live.map
                      (fun other => (tokens rules other).length)).sum
                    (live.countP (fun other => term ∈ tokens rules other))
                    ((tokens rules doc).count term)
                    (tokens rules doc).length))
              (score.getD (arith.ofNat 0)))
          else
            score := by
    induction terms with
    | nil =>
        simp
    | cons term rest inductionHypothesis =>
        intro score
        rw [List.foldl_cons, inductionHypothesis]
        by_cases contained : term ∈ tokens rules doc
        · by_cases later :
            rest.any (fun term => term ∈ tokens rules doc) = true
          · simp [scoreStep, contained, later]
          · have noneLeft :
                rest.filter (fun term => term ∈ tokens rules doc) = [] := by
              rw [List.filter_eq_nil_iff]
              intro other member found
              exact later (List.any_eq_true.mpr ⟨other, member, found⟩)
            simp [scoreStep, contained, noneLeft, later]
        · simp [scoreStep, contained]
  rw [folded none]
  rfl

/-! ## Hits -/

omit [LinearOrder real] in
theorem mapM_eq_filterMap {α β : Type} {f : α → Option β} {items : List α}
    (defined : ∀ item ∈ items, ∃ value, f item = some value) :
    items.mapM f = some (items.filterMap f) ∧
      (items.filterMap f).length = items.length := by
  induction items with
  | nil =>
      exact ⟨rfl, rfl⟩
  | cons item rest inductionHypothesis =>
      obtain ⟨value, found⟩ := defined item (by simp)
      obtain ⟨mapped, sameLength⟩ := inductionHypothesis
        (fun other member => defined other (by simp [member]))
      constructor
      · rw [List.mapM_cons, found, mapped, List.filterMap_cons, found]
        rfl
      · rw [List.filterMap_cons, found, List.length_cons, sameLength,
          List.length_cons]

/-- Hits of distinct aircraft have one sorted order. -/
theorem sortScored_eq_of_perm {hits hits' : List (ScoredHit real)}
    (permuted : hits.Perm hits')
    (once : (hits.map (fun hit => hit.doc.icao24)).Nodup) :
    sortScored hits = sortScored hits' := by
  apply sortBy_eq_of_perm cmpScored_trans cmpScored_total permuted
  intro first member second secondMember forth back
  have same := cmpScoreKey_antisymm (first.score, first.doc.icao24)
    (second.score, second.doc.icao24) forth back
  exact List.inj_on_of_nodup_map once member secondMember
    (congrArg Prod.snd same)

/-- The documents a query finds, with their scores. -/
def scanHits (rules : TextRules) (arith : Arithmetic real)
    (live : List (FlightDocument real)) (terms : List String) :
    List (ScoredHit real) :=
  (live.filter
    (fun doc => terms.any (fun term => term ∈ tokens rules doc))).map
      (fun doc => ⟨doc, scanScore rules arith live terms doc⟩)

/-- The hit of a scored slot. -/
def hitAt (index : InvertedIndex real) (entry : Nat × real) :
    Option (ScoredHit real) := do
  let slot ← index.docs[entry.1]?
  let doc ← slot
  some ⟨doc, entry.2⟩

omit [LinearOrder real] in
theorem hitAt_eq_some_iff {entry : Nat × real} {hit : ScoredHit real} :
    hitAt index entry = some hit ↔
      index.docAt entry.1 = some hit.doc ∧ entry.2 = hit.score := by
  obtain ⟨doc, score⟩ := hit
  simp only [hitAt, docAt]
  cases index.docs[entry.1]? with
  | none =>
      simp
  | some slot =>
      cases slot with
      | none =>
          simp
      | some held =>
          simp

/-- The scored slots are those of the documents that contain a term. -/
theorem Represents.getElem?_scores
    (represents : index.Represents rules surviving) (arith : Arithmetic real)
    {terms : List String} {scores : Std.ExtTreeMap Nat real}
    (scored : InvertedIndex.scoreTerms arith index terms [] ∅ = some scores)
    (docId : Nat) (score : real) :
    scores[docId]? = some score ↔
      ∃ doc, index.docAt docId = some doc ∧
        ⟨doc, score⟩ ∈ scanHits rules arith (liveDocs surviving)
          (distinctTerms terms []) := by
  obtain ⟨after, run, lookup⟩ := represents.scoreTerms arith terms [] ∅
  rw [scored, Option.some.injEq] at run
  subst run
  rw [lookup docId]
  cases held : index.docAt docId with
  | none =>
      simp
  | some doc =>
      have live : doc ∈ liveDocs surviving :=
        (mem_liveDocs represents).mpr ⟨docId, held⟩
      simp only [Std.ExtTreeMap.getElem?_empty, foldl_scoreStep,
        Option.some.injEq, exists_eq_left', scanHits, List.mem_map,
        List.mem_filter, ScoredHit.mk.injEq]
      by_cases contained :
        (distinctTerms terms []).any (fun term => term ∈ tokens rules doc) =
          true
      · rw [if_pos contained, Option.some.injEq]
        constructor
        · intro equality
          subst equality
          exact ⟨doc, ⟨live, contained⟩, rfl, rfl⟩
        · intro finding
          rcases finding with ⟨found, -, rfl, scoreIs⟩
          exact scoreIs
      · rw [if_neg contained]
        constructor
        · intro impossible
          contradiction
        · intro finding
          rcases finding with ⟨found, ⟨-, foundContained⟩, rfl, -⟩
          exact absurd foundContained contained

private theorem Represents.scanHits_once
    (represents : index.Represents rules surviving) (arith : Arithmetic real)
    (terms : List String) :
    ((scanHits rules arith (liveDocs surviving) terms).map
      (fun hit => hit.doc.icao24)).Nodup := by
  rw [scanHits, List.map_map]
  exact represents.liveDocs_once.sublist (List.filter_sublist.map _)

/-- The hits taken from the score table are those of the scan. -/
theorem Represents.hits_perm (represents : index.Represents rules surviving)
    (arith : Arithmetic real) (order : IterationOrder (Nat × real))
    {terms : List String} {scores : Std.ExtTreeMap Nat real}
    (scored : InvertedIndex.scoreTerms arith index terms [] ∅ = some scores) :
    ((order.arrange scores.toList).filterMap (hitAt index)).Perm
      (scanHits rules arith (liveDocs surviving) (distinctTerms terms [])) := by
  have lookup := represents.getElem?_scores arith scored
  have slotsOnce :
      (order.arrange scores.toList).Pairwise
        (fun first second => first.1 ≠ second.1) := by
    rw [← List.pairwise_map]
    exact ((order.perm scores.toList).map Prod.fst).nodup_iff.mpr
      (nodup_keys scores)
  have hitsOnce :
      ((order.arrange scores.toList).filterMap (hitAt index)).Nodup := by
    rw [List.Nodup, List.pairwise_filterMap]
    apply slotsOnce.imp
    intro first second different hit hitIs other otherIs same
    have held := (hitAt_eq_some_iff.mp hitIs).1
    have otherHeld := (hitAt_eq_some_iff.mp otherIs).1
    rw [← same] at otherHeld
    exact different (represents.slots.docId_eq held otherHeld rfl)
  rw [List.perm_ext_iff_of_nodup hitsOnce
    (List.Nodup.of_map _ (represents.scanHits_once arith _))]
  intro hit
  rw [List.mem_filterMap]
  constructor
  · intro membership
    rcases membership with ⟨⟨docId, score⟩, member, hitIs⟩
    rw [IterationOrder.mem_arrange, mem_toList, lookup] at member
    obtain ⟨doc, held, found⟩ := member
    obtain ⟨hitHeld, hitScore⟩ := hitAt_eq_some_iff.mp hitIs
    rw [held, Option.some.injEq] at hitHeld
    rw [hitHeld] at found
    rw [show score = hit.score from hitScore] at found
    exact found
  · intro member
    obtain ⟨doc, docMember, rfl⟩ := List.mem_map.mp member
    obtain ⟨docId, held⟩ :=
      (mem_liveDocs represents).mp (List.mem_of_mem_filter docMember)
    refine ⟨(docId, _), ?_, hitAt_eq_some_iff.mpr ⟨held, rfl⟩⟩
    rw [IterationOrder.mem_arrange, mem_toList, lookup]
    exact ⟨doc, held, member⟩

/-- Searching an index is scanning the documents it represents. -/
theorem Represents.search (represents : index.Represents rules surviving)
    (arith : Arithmetic real) (order : IterationOrder (Nat × real))
    (query : String) (limit : Nat) :
    InvertedIndex.search rules arith order index query limit =
      some (scan rules arith surviving query limit) := by
  by_cases empty : (tokenize rules query).isEmpty = true
  · have none : tokenize rules query = [] := List.isEmpty_iff.mp empty
    simp [InvertedIndex.search, scan, none, distinctTerms, sortScored, sortBy,
      truncate]
  obtain ⟨scores, scored, -⟩ :=
    represents.scoreTerms arith (tokenize rules query) [] ∅
  have permuted := represents.hits_perm arith order scored
  have hitsOnce := ((permuted.map _).nodup_iff).mpr
    (represents.scanHits_once arith (distinctTerms (tokenize rules query) []))
  have defined :
      ∀ entry ∈ order.arrange scores.toList,
        ∃ hit, hitAt index entry = some hit := by
    intro finding member
    rcases finding with ⟨docId, score⟩
    rw [IterationOrder.mem_arrange, mem_toList,
      represents.getElem?_scores arith scored] at member
    obtain ⟨doc, held, -⟩ := member
    exact ⟨⟨doc, score⟩, hitAt_eq_some_iff.mpr ⟨held, rfl⟩⟩
  obtain ⟨mapped, hitCount⟩ := mapM_eq_filterMap defined
  have run :
      InvertedIndex.search rules arith order index query limit =
        some ⟨scores.size, truncate limit
          (sortScored ((order.arrange scores.toList).filterMap
            (hitAt index)))⟩ := by
    rw [InvertedIndex.search, if_neg empty, scored]
    exact congrArg (fun hits => hits.bind (fun hits =>
      some (⟨scores.size, truncate limit (sortScored hits)⟩ :
        SearchResults real))) mapped
  rw [run, sortScored_eq_of_perm permuted hitsOnce]
  rw [IterationOrder.length_arrange, Std.ExtTreeMap.length_toList,
    permuted.length_eq, scanHits, List.length_map] at hitCount
  rw [← hitCount]
  rfl

end Scores

end InvertedIndex

/-- Over every run of inserts and removals the index is built without a panic,
and every search of it is a scan of the surviving documents. -/
theorem search_eq_scan [LinearOrder real] (rules : TextRules)
    (arith : Arithmetic real) (changes : List (IndexChange real)) :
    ∃ index, buildIndex rules changes = some index ∧
      (∀ order query limit,
        index.search rules arith order query limit =
          some (scan rules arith (survivors changes) query limit)) ∧
      index.documents.Perm (liveDocs (survivors changes)) ∧
      index.len = (survivors changes).size := by
  obtain ⟨index, built, represents⟩ := represents_buildIndex rules changes
  refine ⟨index, built, ?_, represents.documents_perm, ?_⟩
  · intro order query limit
    exact represents.search arith order query limit
  · rw [represents.len_eq, liveDocs, List.length_map,
      Std.ExtTreeMap.length_toList]

end AetherEngine.Shard
