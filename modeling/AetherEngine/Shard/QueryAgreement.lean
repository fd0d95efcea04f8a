import AetherEngine.Shard.Agg
import Mathlib.Algebra.Field.Rat
import Mathlib.Algebra.Order.Ring.Rat
import Mathlib.Data.UInt

/-!
# Searches, filters and aggregates agree

A shard finds the documents of a query on three routes: a plain search is cut
inside the index, a filtered search ranks everything first, and an aggregate
takes the documents of the ranking.  All three see the same documents.  A filter
and an aggregate also read the fields of a document through tables of their own;
the tables differ in one name.
-/

namespace AetherEngine.Shard

open AetherEngine.Common
open AetherEngine.Doubles
open AetherEngine.Ranking
open AetherEngine.Tables

variable {real : Type} {vectors : VectorSide real}

/-! ## One pass without a digest -/

section Pass

variable {digests : DigestFloats real} {floats : FloatRules real}
variable {text : BucketText real} {request : AggregateRequest real}

/-- The buckets of a pass. -/
def countBuckets (floats : FloatRules real) (text : BucketText real)
    (request : AggregateRequest real) (docs : List (FlightDocument real)) :
    Std.ExtTreeMap String UInt64 :=
  docs.foldl
    (fun buckets doc => countBucket buckets (bucketOf floats text request doc))
    ∅

private theorem foldlM_gather (simple : request.kind ≠ .percentiles)
    (docs : List (FlightDocument real)) (gathered : Gathered real) :
    docs.foldlM (gather digests floats text request) gathered =
      some
        { count := gathered.count + docs.length.toUInt64
          buckets := docs.foldl
            (fun buckets doc =>
              countBucket buckets (bucketOf floats text request doc))
            gathered.buckets
          digest := gathered.digest } := by
  have sampleless : ∀ doc, sampleOf floats request doc = none := by
    intro doc
    rw [sampleOf]
    split
    · contradiction
    · rfl
  induction docs generalizing gathered with
  | nil =>
      simp
  | cons doc rest inductionHypothesis =>
      have taken : gather digests floats text request gathered doc =
          some
            { count := gathered.count + 1
              buckets := countBucket gathered.buckets
                (bucketOf floats text request doc)
              digest := gathered.digest } := by
        rw [gather, sampleless doc]
        rfl
      rw [List.foldlM_cons, taken, Option.bind_eq_bind, Option.bind_some,
        inductionHypothesis, List.foldl_cons, List.length_cons]
      simp [UInt64.add_assoc, UInt64.add_comm]

/-- A pass that wants no digest counts its documents and fills their
buckets. -/
theorem summarize_eq (simple : request.kind ≠ .percentiles)
    (docs : List (FlightDocument real)) :
    summarize digests floats text docs request =
      some
        { kind := request.kind
          count := docs.length.toUInt64
          buckets := countBuckets floats text request docs
          digest := none } := by
  rw [summarize, foldlM_gather simple]
  simp [sentDigest, simple, countBuckets]

end Pass

/-! ## Three routes to the matching documents -/

/-- The document contains a term of the query. -/
def mentions (rules : TextRules) (query : String)
    (doc : FlightDocument real) : Bool :=
  (tokenize rules query).any (fun term => term ∈ tokens rules doc)

private theorem mem_distinctTerms (terms seenTerms : List String)
    (term : String) :
    term ∈ distinctTerms terms seenTerms ↔
      term ∈ terms ∧ term ∉ seenTerms := by
  induction terms generalizing seenTerms with
  | nil =>
      simp [distinctTerms]
  | cons head rest inductionHypothesis =>
      rw [distinctTerms]
      by_cases seen : head ∈ seenTerms
      · rw [if_pos seen, inductionHypothesis]
        grind
      · rw [if_neg seen]
        simp only [List.mem_cons, inductionHypothesis]
        grind

/-- A text of white space has no token. -/
theorem tokenize_eq_nil_of_blank {rules : TextRules}
    {isWhitespace : Char → Bool}
    (separates : ∀ c, isWhitespace c = true → rules.isAlphanumeric c = false)
    {text : String} (blank : text.toList.all isWhitespace = true) :
    tokenize rules text = [] := by
  have pieces : ∀ characters : List Char,
      characters.all isWhitespace = true →
      ∀ run ∈ characters.splitOnP (fun c => !rules.isAlphanumeric c),
        run = [] := by
    intro characters
    induction characters with
    | nil =>
        simp
    | cons c rest inductionHypothesis =>
        intro white run member
        rw [List.all_cons, Bool.and_eq_true] at white
        rw [List.splitOnP_cons_eq_if_modifyHead, separates c white.1] at member
        rcases List.mem_cons.mp member with first | later
        · exact first
        · exact inductionHypothesis white.2 run later
  rw [tokenize, List.map_eq_nil_iff, List.filter_eq_nil_iff]
  intro run member
  simp [pieces _ blank run member]

section Routes

variable [LinearOrder real] {rules : TextRules}
variable {service : ShardSearchService real vectors}
variable {surviving : Std.ExtTreeMap String (FlightDocument real)}

/-- The documents of a full ranking are those that mention the query. -/
theorem map_doc_scan_perm (rules : TextRules) (arith : Arithmetic real)
    (query : String) :
    ((scan rules arith surviving query 0).hits.map ScoredHit.doc).Perm
      ((liveDocs surviving).filter (mentions rules query)) := by
  have same : ∀ doc : FlightDocument real,
      (distinctTerms (tokenize rules query) []).any
          (fun term => term ∈ tokens rules doc) =
        mentions rules query doc := by
    intro doc
    rw [mentions, Bool.eq_iff_iff]
    simp [mem_distinctTerms]
  rw [scan, truncate_zero]
  refine ((sortBy_perm _ _).map ScoredHit.doc).trans ?_
  rw [List.map_map]
  simp only [same, Function.comp_def, List.map_id']
  exact List.Perm.refl _

/-- The hits of a filtered search are as many as the stored documents that
mention the query and pass. -/
theorem length_matching (holds : service.store.Holds rules surviving)
    (arith : Arithmetic real) (floats : FloatRules real) (query : String)
    (filter : Option (Common.Filter real)) :
    (service.matching rules arith floats surviving query filter).length =
      service.store.documents.countP
        (fun doc => mentions rules query doc &&
          Filter.passes floats doc filter) := by
  have stored : service.store.documents.Perm (liveDocs surviving) :=
    InvertedIndex.Represents.documents_perm holds
  calc (service.matching rules arith floats surviving query filter).length
      = (scan rules arith surviving query 0).hits.countP
          (fun hit => Filter.passes floats hit.doc filter) := by
        rw [ShardSearchService.matching, List.length_map,
          ← List.countP_eq_length_filter]
    _ = ((scan rules arith surviving query 0).hits.map
          ScoredHit.doc).countP
            (fun doc => Filter.passes floats doc filter) := by
        rw [List.countP_map]
        rfl
    _ = ((liveDocs surviving).filter (mentions rules query)).countP
          (fun doc => Filter.passes floats doc filter) :=
        (map_doc_scan_perm rules arith query).countP_eq _
    _ = service.store.documents.countP
          (fun doc => mentions rules query doc &&
            Filter.passes floats doc filter) := by
        rw [List.countP_filter, stored.countP_eq]
        simp only [Bool.and_comm]

/-- Counting over a query with a token counts the hits of the filtered
search. -/
theorem aggregate_count (holds : service.store.Holds rules surviving)
    (arith : Arithmetic real) {floats : FloatRules real}
    (digests : DigestFloats real) (text : BucketText real)
    {isWhitespace : Char → Bool}
    (separates : ∀ c, isWhitespace c = true → rules.isAlphanumeric c = false)
    (order : IterationOrder (Nat × real)) {request : AggregateRequest real}
    (spoken : tokenize rules request.query ≠ [])
    (counting : request.kind = .count)
    (accepted : checkFilter floats request.filter = .ok ()) :
    ∃ summary,
      service.aggregate isWhitespace rules arith digests floats text order
          request =
        some (.ok
          { summary := some summary, percentiles := [], manifest := none }) ∧
      summary.count = (service.matching rules arith floats surviving
        request.query request.filter).length.toUInt64 := by
  have visible : request.query.toList.all isWhitespace = false := by
    rw [Bool.eq_false_iff]
    intro blank
    exact spoken (tokenize_eq_nil_of_blank separates blank)
  have answers : service.store.search rules arith order request.query 0 =
      some (scan rules arith surviving request.query 0) :=
    InvertedIndex.Represents.search holds arith order _ 0
  have matched : service.store.matching isWhitespace rules arith order
      request.query =
        some ((scan rules arith surviving request.query 0).hits.map
          ScoredHit.doc) := by
    rw [ShardStore.matching, visible, answers]
    rfl
  have simple : request.kind ≠ .percentiles := by
    rw [counting]
    decide
  let docs := ((scan rules arith surviving request.query 0).hits.map
    ScoredHit.doc).filter (fun doc => Filter.passes floats doc request.filter)
  refine ⟨⟨request.kind, docs.length.toUInt64,
    countBuckets floats text request docs, none⟩, ?_, ?_⟩
  · simp only [ShardSearchService.aggregate, accepted, matched,
      summarize_eq simple, Option.bind_eq_bind, Option.bind_some, docs]
  · simp [docs, ShardSearchService.matching, List.filter_map,
      Function.comp_def]

/-- An empty filter is no filter. -/
theorem search_emptyFilter (holds : service.store.Holds rules surviving)
    (arith : Arithmetic real) (floats : FloatRules real)
    (order order' : IterationOrder (Nat × real)) (query : String)
    (limit : UInt32) :
    service.search rules arith floats order ⟨query, limit, some ⟨[]⟩⟩ =
      service.search rules arith floats order' ⟨query, limit, none⟩ := by
  have empty : checkFilter floats (some ⟨[]⟩) = .ok () := rfl
  have absent : checkFilter floats none = .ok () := rfl
  have plain := ShardSearchService.search_eq holds arith order'
    (show checkFilter floats (SearchRequest.filter ⟨query, limit, none⟩) =
      .ok () from absent)
  have filtered := ShardSearchService.search_eq holds arith order
    (show checkFilter floats
      (SearchRequest.filter ⟨query, limit, some ⟨[]⟩⟩) = .ok () from empty)
  rw [plain, filtered]
  rfl

/-- The routes agree: a filtered search gives the first hits of the full plain
ranking that pass, and counts all of them; an empty filter is no filter; and
counting gives the same number. -/
theorem search_filter_count_agree (held : HeldStore rules vectors)
    (shardId : String) (assignments : Option (List UInt32))
    (arith : Arithmetic real) (floats : FloatRules real)
    (digests : DigestFloats real) (text : BucketText real)
    {isWhitespace : Char → Bool}
    (separates : ∀ c, isWhitespace c = true → rules.isAlphanumeric c = false)
    (order : Fin 4 → IterationOrder (Nat × real)) (query : String)
    (limit : UInt32) (filter : Option (Common.Filter real))
    (accepted : checkFilter floats filter = .ok ()) :
    let service : ShardSearchService real vectors :=
      ⟨held.store, shardId, assignments⟩
    ∃ ranking found : SearchResponse real,
      service.search rules arith floats (order 0) ⟨query, 0, none⟩ =
          some (.ok ranking) ∧
        service.search rules arith floats (order 1) ⟨query, limit, filter⟩ =
          some (.ok found) ∧
        found.hits = truncate limit.toNat (ranking.hits.filter
          (fun hit => hit.document.any
            (fun doc => Filter.passes floats doc filter))) ∧
        found.totalMatched = (held.store.documents.countP
          (fun doc => mentions rules query doc &&
            Filter.passes floats doc filter)).toUInt64 ∧
        service.search rules arith floats (order 1)
            ⟨query, limit, some ⟨[]⟩⟩ =
          service.search rules arith floats (order 2) ⟨query, limit, none⟩ ∧
        (tokenize rules query ≠ [] →
          ∀ request : AggregateRequest real, request.query = query →
            request.kind = .count → request.filter = filter →
            ∃ summary,
              service.aggregate isWhitespace rules arith digests floats text
                  (order 3) request =
                some (.ok
                  { summary := some summary
                    percentiles := []
                    manifest := none }) ∧
              summary.count = found.totalMatched) := by
  intro service
  have holds : service.store.Holds rules held.contents := held.holds_contents
  have ranked := ShardSearchService.search_eq holds arith (order 0)
    (show checkFilter floats (SearchRequest.filter ⟨query, 0, none⟩) =
      .ok () from rfl)
  have searched := ShardSearchService.search_eq holds arith (order 1)
    (show checkFilter floats (SearchRequest.filter ⟨query, limit, filter⟩) =
      .ok () from accepted)
  refine ⟨_, _, ranked, searched, ?_, ?_,
    search_emptyFilter holds arith floats (order 1) (order 2) query limit,
    ?_⟩
  · have everything : (0 : UInt32).toNat = 0 := rfl
    simp only [everything, truncate_zero]
    rw [ShardSearchService.matching_eq_filter]
  · simp only [length_matching holds]
    rfl
  · intro spoken request sameQuery counting sameFilter
    subst sameQuery
    subst sameFilter
    exact aggregate_count holds arith digests text separates (order 3) spoken
      counting accepted

end Routes

/-! ## Two tables of fields -/

/-- The counts of the buckets whose keys are wanted, added up. -/
def bucketTotal (wanted : String → Bool)
    (buckets : Std.ExtTreeMap String UInt64) : UInt64 :=
  ((buckets.toList.filter (fun entry => wanted entry.1)).map Prod.snd).sum

private theorem bucketTotal_addTo (wanted : String → Bool)
    (buckets : Std.ExtTreeMap String UInt64) (key : String) :
    bucketTotal wanted (addTo buckets key 1) =
      bucketTotal wanted buckets + if wanted key then 1 else 0 := by
  have inserted : addTo buckets key 1 =
      buckets.insert key (buckets[key]?.getD 0 + 1) := by
    apply Std.ExtTreeMap.ext_getElem?
    intro other
    rw [addTo, getElem?_alter, getElem?_insert]
  have after : (addTo buckets key 1).toList.Perm
      ((key, buckets[key]?.getD 0 + 1) :: (buckets.erase key).toList) := by
    rw [inserted]
    exact toList_insert_perm ..
  have totalAfter : bucketTotal wanted (addTo buckets key 1) =
      (if wanted key then buckets[key]?.getD 0 + 1 else 0) +
        bucketTotal wanted (buckets.erase key) := by
    rw [bucketTotal, ((after.filter _).map _).sum_eq, List.filter_cons]
    by_cases want : wanted key = true
    · simp [want, bucketTotal]
    · simp [want, bucketTotal]
  have totalBefore : bucketTotal wanted buckets =
      (if wanted key then buckets[key]?.getD 0 else 0) +
        bucketTotal wanted (buckets.erase key) := by
    cases found : buckets[key]? with
    | none =>
        rw [erase_of_getElem?_none found]
        simp
    | some count =>
        rw [bucketTotal,
          (((toList_perm_of_getElem? found).filter _).map _).sum_eq,
          List.filter_cons]
        by_cases want : wanted key = true
        · simp [want, bucketTotal]
        · simp [want, bucketTotal]
  rw [totalAfter, totalBefore]
  by_cases want : wanted key = true
  · simp only [want, if_true]
    rw [add_right_comm]
  · simp [want]

/-- The wanted buckets of a pass hold the documents that count in one. -/
theorem bucketTotal_countBuckets (wanted : String → Bool)
    (floats : FloatRules real) (text : BucketText real)
    (request : AggregateRequest real) (docs : List (FlightDocument real)) :
    bucketTotal wanted (countBuckets floats text request docs) =
      (docs.countP (fun doc =>
        (bucketOf floats text request doc).any wanted)).toUInt64 := by
  induction docs using List.reverseRecOn with
  | nil =>
      rfl
  | append_singleton earlier doc inductionHypothesis =>
      have step : countBuckets floats text request (earlier ++ [doc]) =
          countBucket (countBuckets floats text request earlier)
            (bucketOf floats text request doc) := by
        rw [countBuckets, List.foldl_append]
        rfl
      rw [step, List.countP_append, List.countP_singleton]
      cases bucket : bucketOf floats text request doc with
      | none =>
          simp [countBucket, inductionHypothesis]
      | some key =>
          rw [countBucket, bucketTotal_addTo, inductionHypothesis]
          by_cases want : wanted key = true
          · simp [want]
          · simp [want]

/-- A document passes if the field's text is the wanted one. -/
def equalsFilter (field want : String) : Common.Filter real :=
  ⟨[⟨field, some (.equals want)⟩]⟩

/-- A document passes if the field's number is the wanted one. -/
def pointFilter (field : String) (want : real) : Common.Filter real :=
  ⟨[⟨field, some (.range ⟨some want, some want⟩)⟩]⟩

section Fields

variable {floats : FloatRules real}

private theorem validate_singleton (floats : FloatRules real)
    (condition : FilterCondition real) :
    Filter.validate floats ⟨[condition]⟩ =
      Filter.validateCondition floats condition := by
  change (Filter.validateCondition floats condition >>= fun _ => pure ()) = _
  cases Filter.validateCondition floats condition with
  | ok =>
      rfl
  | error message =>
      rfl

/-- A check that only refuses. -/
theorem refusing_eq_ok_iff {refused : Prop} [Decidable refused]
    {message : String} {rest : Except String Unit} :
    (if refused then .error message else rest) = .ok () ↔
      ¬ refused ∧ rest = .ok () := by
  by_cases isRefused : refused
  · simp [isRefused]
  · simp [isRefused]

theorem validate_equalsFilter (floats : FloatRules real)
    (field want : String) :
    (equalsFilter field want).validate floats = .ok () ↔
      field ∉ Filter.numericFields ∧ field ∉ Filter.boolFields := by
  rw [equalsFilter, validate_singleton, Filter.validateCondition]
  simp only [refusing_eq_ok_iff, not_or]
  exact and_iff_left trivial

theorem validate_pointFilter (lawful : floats.Lawful) (field : String)
    (want : real) :
    (pointFilter field want).validate floats = .ok () ↔
      field ∉ Filter.textFields ∧ field ∉ Filter.boolFields := by
  have inOrder : Filter.validateRange floats field ⟨some want, some want⟩ =
      .ok () := by
    simp [Filter.validateRange, lawful.lt_irrefl]
  rw [pointFilter, validate_singleton, Filter.validateCondition]
  simp only [refusing_eq_ok_iff, not_or]
  exact and_iff_left inOrder

theorem passes_equalsFilter (floats : FloatRules real)
    (doc : FlightDocument real) (field want : String) :
    Filter.passes floats doc (some (equalsFilter field want)) =
      Filter.eqIgnoreAsciiCase (Filter.textValue doc field) want := by
  simp [Filter.passes, equalsFilter, Filter.conditionHolds]

theorem passes_pointFilter (floats : FloatRules real)
    (doc : FlightDocument real) (field : String) (want : real) :
    Filter.passes floats doc (some (pointFilter field want)) =
      floats.equal want (Filter.numericValue floats doc field) := by
  simp [Filter.passes, pointFilter, Filter.conditionHolds, FloatRules.equal]

/-- Outside the aircraft's identity the tables of texts agree; a missing text
is empty to a filter. -/
theorem textValue_eq (doc : FlightDocument real) {field : String}
    (other : field ≠ "icao24") :
    Filter.textValue doc field = (textField doc field).getD "" := by
  simp only [Filter.textValue, textField, if_neg other]
  repeat' split
  all_goals rfl

/-- The tables of numbers agree; a missing number is not one to a filter. -/
theorem numericValue_eq (floats : FloatRules real)
    (doc : FlightDocument real) (field : String) :
    Filter.numericValue floats doc field =
      (numericField floats doc field).getD floats.nan := by
  simp only [Filter.numericValue, numericField]
  repeat' split
  all_goals rfl

/-- An absent text equals no text but the empty one. -/
theorem eqIgnoreAsciiCase_getD {want : String} (named : want ≠ "")
    (found : Option String) :
    Filter.eqIgnoreAsciiCase (found.getD "") want =
      found.any (fun text => Filter.eqIgnoreAsciiCase text want) := by
  cases found with
  | some text =>
      rfl
  | none =>
      rw [Option.any_none, Filter.eqIgnoreAsciiCase, decide_eq_false_iff_not]
      intro same
      have letterless : want.toList = [] :=
        List.map_eq_nil_iff.mp same.symm
      exact named (String.toList_eq_nil_iff.mp letterless)

variable (floats) in
/-- Filters and aggregates see the same values in a field, whatever the
documents: the documents that pass an equality are those in the buckets that
match its text, and a document passes a range of one number when that is the
number of its bucket. -/
structure FieldAgrees (digests : DigestFloats real) (text : BucketText real)
    (field : String) : Prop where
  texts : ∀ want, (equalsFilter field want).validate floats = .ok () →
    want ≠ "" → ∀ (docs : List (FlightDocument real))
      (counting bucketing : AggregateRequest real),
      counting.kind = .count → bucketing.kind = .valueCounts →
      bucketing.field = field →
      ∃ counted bucketed,
        summarize digests floats text
            (docs.filter (fun doc => Filter.passes floats doc
              (some (equalsFilter field want)))) counting =
          some counted ∧
        summarize digests floats text docs bucketing = some bucketed ∧
        counted.count = bucketTotal
          (fun key => Filter.eqIgnoreAsciiCase key want) bucketed.buckets
  numbers : ∀ want, (pointFilter field want).validate floats = .ok () →
    ∀ doc : FlightDocument real,
      Filter.passes floats doc (some (pointFilter field want)) =
        (numericField floats doc field).any (floats.equal want)

private theorem fieldAgrees_of_ne (lawful : floats.Lawful)
    (digests : DigestFloats real) (text : BucketText real) {field : String}
    (other : field ≠ "icao24") : FieldAgrees floats digests text field := by
  constructor
  case texts =>
    intro want _ named docs counting bucketing counts fills ofField
    have simpleCount : counting.kind ≠ .percentiles := by
      rw [counts]
      decide
    have simpleBuckets : bucketing.kind ≠ .percentiles := by
      rw [fills]
      decide
    refine ⟨_, _, summarize_eq simpleCount _, summarize_eq simpleBuckets _,
      ?_⟩
    simp only [bucketTotal_countBuckets, bucketOf, fills, ofField,
      List.countP_eq_length_filter, passes_equalsFilter, textValue_eq _ other,
      eqIgnoreAsciiCase_getD named]
  case numbers =>
    intro want _ doc
    rw [passes_pointFilter, numericValue_eq]
    cases numericField floats doc field with
    | some value =>
        rfl
    | none =>
        simp [FloatRules.equal, lawful.le_nan]

/-- The value counts leave out the aircraft's identity. -/
theorem not_fieldAgrees_icao24 (floats : FloatRules real)
    (digests : DigestFloats real) (text : BucketText real) :
    ¬ FieldAgrees floats digests text "icao24" := by
  intro agrees
  let request (kind : AggKind) : AggregateRequest real :=
    { query := "", kind := kind, field := "icao24",
      interval := floats.ofInt 0, percentiles := [], filter := none }
  obtain ⟨counted, bucketed, countedIs, bucketedIs, same⟩ :=
    agrees.texts "a" ((validate_equalsFilter ..).mpr (by decide))
      (by decide) [{ defaultDocument floats with icao24 := "a" }] (request .count)
      (request .valueCounts) rfl rfl rfl
  have countSimple : (request .count).kind ≠ .percentiles := by
    simp [request]
  have bucketSimple : (request .valueCounts).kind ≠ .percentiles := by
    simp [request]
  rw [summarize_eq countSimple, Option.some.injEq] at countedIs
  rw [summarize_eq bucketSimple, Option.some.injEq] at bucketedIs
  subst countedIs
  subst bucketedIs
  simp only [bucketTotal_countBuckets, passes_equalsFilter] at same
  simp [defaultDocument, Filter.textValue, bucketOf, textField, request,
    Filter.eqIgnoreAsciiCase] at same

/-- Filters and aggregates address the same values in every field but the
aircraft's identity. -/
theorem fieldAgrees_iff (lawful : floats.Lawful) (digests : DigestFloats real)
    (text : BucketText real) (field : String) :
    FieldAgrees floats digests text field ↔ field ≠ "icao24" := by
  constructor
  · intro agrees identity
    subst identity
    exact not_fieldAgrees_icao24 floats digests text agrees
  · exact fieldAgrees_of_ne lawful digests text

end Fields

/-! ## Two flights -/

namespace Sample

def rules : TextRules where
  isAlphanumeric := Char.isAlphanum
  toLowercase text := String.ofList (text.toList.map Char.toLower)

/-- Scores over the rationals, with the start of the series of the
logarithm. -/
def arith : Arithmetic Rat where
  ofNat number := number
  half := 1 / 2
  add := (· + ·)
  sub := (· - ·)
  mul := (· * ·)
  div := (· / ·)
  ln value := 2 * ((value - 1) / (value + 1))
  k1 := 6 / 5
  b := 3 / 4

def floats : FloatRules Rat where
  ofInt time := time
  nan := 0
  le first second := first ≤ second
  lt first second := first < second
  display := toString

def digests : DigestFloats Rat where
  ofNat number := number
  nan := 0
  add := (· + ·)
  sub := (· - ·)
  mul := (· * ·)
  div := (· / ·)
  le first second := first ≤ second
  lt first second := first < second
  partialCmp first second := some (compare first second)
  isFinite _ := true
  k _ quantile := quantile

def texts : BucketText Rat where
  bucketKey value width := toString (value / width).floor
  geoCell latitude longitude _ := toString latitude ++ "," ++ toString longitude

def noVectors : VectorSide Rat where
  State := Unit
  new := ()
  restart state := state
  insert state _ := state
  remove state _ := (state, false)

def flight (icao24 : String) (altitude : Rat) : FlightDocument Rat :=
  { defaultDocument floats with
    icao24 := icao24
    callsign := "UAL"
    altitude := altitude }

/-- A store with two flights of one airline. -/
def store : HeldStore rules noVectors :=
  HeldStore.new.insertAll (fun _ => ⟨.asStored, .asStored⟩)
    [flight "a" 0, flight "b" 5000]

def climbed : Common.Filter Rat :=
  ⟨[⟨"altitude", some (.range ⟨some 1000, none⟩)⟩]⟩

private theorem whitespace_not_alphanumeric (c : Char)
    (blank : c.isWhitespace = true) : rules.isAlphanumeric c = false := by
  simp only [Char.isWhitespace, Bool.or_eq_true, decide_eq_true_eq] at blank
  rcases blank with ((rfl | rfl) | rfl) | rfl
  all_goals decide

def doubles : FloatRules (Double Rat) where
  ofInt time := .finite time
  nan := .nan
  le := Double.le
  lt := Double.lt
  display _ := "number"

theorem doubles_lawful : doubles.Lawful where
  le_nan value := by
    cases value with
    | finite value => rfl
    | infinite negative => rfl
    | nan => rfl
  lt_irrefl value := by
    cases value with
    | finite value => simp [doubles, Double.lt_finite]
    | infinite negative => cases negative <;> rfl
    | nan => rfl

def doubleTexts : BucketText (Double Rat) where
  bucketKey _ _ := "bucket"
  geoCell _ _ _ := "cell"

def abc : FlightDocument (Double Rat) :=
  { defaultDocument doubles with icao24 := "abc" }

def overField (kind : AggKind) (field : String) :
    AggregateRequest (Double Rat) where
  query := ""
  kind := kind
  field := field
  interval := .finite 1
  percentiles := []
  filter := none

end Sample

/-- The search for the flights that have climbed counts one of the two. -/
theorem search_filter_count_agree_twoFlights :
    ∃ found, ShardSearchService.search Sample.rules Sample.arith Sample.floats
        .asStored ⟨Sample.store.store, "shard-0", none⟩
        ⟨"ual", 1, some Sample.climbed⟩ = some (.ok found) ∧
      found.totalMatched = 1 := by
  obtain ⟨ranking, found, -, searched, -, total, -⟩ :=
    search_filter_count_agree Sample.store "shard-0" none Sample.arith
      Sample.floats Sample.digests Sample.texts
      Sample.whitespace_not_alphanumeric (fun _ => .asStored) "ual" 1
      (some Sample.climbed) rfl
  refine ⟨found, searched, total.trans ?_⟩
  decide +kernel

/-- Filters and aggregates agree on origins. -/
theorem fieldAgrees_iff_origin :
    FieldAgrees Sample.doubles (exactFloats (fun _ q => q))
      Sample.doubleTexts "origin" :=
  (fieldAgrees_iff Sample.doubles_lawful _ _ "origin").mpr (by decide)

/-- One aircraft passes the filter on its identity, which is accepted, but no
bucket of the value counts holds it. -/
theorem icao24_passes_and_counts_nowhere :
    (equalsFilter "icao24" "abc").validate Sample.doubles = .ok () ∧
      ∃ counted bucketed,
        summarize (exactFloats (fun _ q => q)) Sample.doubles
            Sample.doubleTexts
            ([Sample.abc].filter
              (fun doc => Filter.passes Sample.doubles doc
                (some (equalsFilter "icao24" "abc"))))
            (Sample.overField .count "icao24") = some counted ∧
        summarize (exactFloats (fun _ q => q)) Sample.doubles
            Sample.doubleTexts [Sample.abc]
            (Sample.overField .valueCounts "icao24") = some bucketed ∧
        counted.count = 1 ∧
        bucketTotal (fun key => Filter.eqIgnoreAsciiCase key "abc")
          bucketed.buckets = 0 := by
  refine ⟨rfl, _, _, summarize_eq (by decide) _, summarize_eq (by decide) _,
    ?_, ?_⟩
  · decide +kernel
  · rw [bucketTotal_countBuckets]
    decide +kernel

end AetherEngine.Shard
