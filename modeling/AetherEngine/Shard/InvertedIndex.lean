import AetherEngine.Common.Messages
import AetherEngine.Foundations.Ranking
import AetherEngine.Foundations.Tables
import Mathlib.Data.String.Basic

/-!
# The keyword index

An in-memory inverted index over a shard's documents: for every term the
documents that contain it and how often.  Documents live in numbered slots; a
removed document retires its slot and a later insert may reuse it.

An operation that would panic gives no result.  Doc ids, frequencies and lengths
are natural numbers.  Character classes and case folding, and the arithmetic of
the scores, are parameters; every pass over a hash map has an order of its own.
-/

namespace AetherEngine.Shard

open AetherEngine.Common
open AetherEngine.Ranking
open AetherEngine.Tables

variable {real : Type}

/-! ## Tokens -/

/-- What the tokenizer takes from the standard library. -/
structure TextRules where
  isAlphanumeric : Char → Bool
  toLowercase : String → String

/-- Lowercased alphanumeric runs; everything else separates. -/
def tokenize (rules : TextRules) (text : String) : List String :=
  ((text.toList.splitOnP (fun c => !rules.isAlphanumeric c)).filter
    (fun run => !run.isEmpty)).map
      (fun run => rules.toLowercase (String.ofList run))

/-- The tokens of a document's indexed text: four fields, then the generic text
fields in the order a pass over them meets their values. -/
def tokensOf (rules : TextRules) (texts : IterationOrder String)
    (doc : FlightDocument real) : List String :=
  [doc.callsign, doc.origin, doc.destination, doc.aircraftType].flatMap
      (tokenize rules) ++
    (texts.arrange (doc.text.toList.map Prod.snd)).flatMap (tokenize rules)

/-- Per-term frequencies over the document's indexed text fields. -/
def termFreqs (rules : TextRules) (texts : IterationOrder String)
    (doc : FlightDocument real) : Std.ExtTreeMap String Nat :=
  histogram (tokensOf rules texts doc)

/-! ## The index -/

/-- A document that contains a term, and how many times. -/
structure Posting where
  docId : Nat
  termFreq : Nat
deriving DecidableEq, Repr

structure InvertedIndex (real : Type) where
  /-- The stored documents; an empty slot is retired. -/
  docs : List (Option (FlightDocument real))
  postings : Std.ExtTreeMap String (List Posting)
  /-- The slot of every aircraft. -/
  byKey : Std.ExtTreeMap String Nat
  /-- Retired slots, the next to reuse last. -/
  free : List Nat
  /-- Token count of every slot. -/
  docLen : List Nat
  totalLen : Nat

/-- The orders in which one pass over a document's terms meets the hash maps. -/
structure Passes where
  texts : IterationOrder String
  terms : IterationOrder (String × Nat)

/-- Subtraction that panics below zero. -/
def checkedSub (minuend subtrahend : Nat) : Option Nat :=
  if subtrahend ≤ minuend then some (minuend - subtrahend) else none

/-- Assignment to an element that panics outside the list. -/
def assign {α : Type} (items : List α) (slot : Nat) (value : α) :
    Option (List α) :=
  if slot < items.length then some (items.set slot value) else none

namespace InvertedIndex

def new : InvertedIndex real where
  docs := []
  postings := ∅
  byKey := ∅
  free := []
  docLen := []
  totalLen := 0

/-- Number of distinct documents indexed. -/
def len (index : InvertedIndex real) : Nat :=
  index.byKey.size

/-- All stored documents, in slot order. -/
def documents (index : InvertedIndex real) : List (FlightDocument real) :=
  index.docs.filterMap id

/-- Remove a document's postings for every term of it. -/
def removePostings (rules : TextRules) (passes : Passes) (docId : Nat)
    (doc : FlightDocument real)
    (postings : Std.ExtTreeMap String (List Posting)) :
    Std.ExtTreeMap String (List Posting) :=
  let terms := (passes.terms.arrange
    (termFreqs rules passes.texts doc).toList).map Prod.fst
  terms.foldl (retain (fun posting => posting.docId ≠ docId)) postings

/-- Add a posting for every term. -/
def pushPostings (passes : Passes) (docId : Nat)
    (freqs : Std.ExtTreeMap String Nat)
    (postings : Std.ExtTreeMap String (List Posting)) :
    Std.ExtTreeMap String (List Posting) :=
  (passes.terms.arrange freqs.toList).foldl
    (fun postings entry => deposit postings entry.1 ⟨docId, entry.2⟩) postings

/-- A re-observed aircraft replaces its stored document in place. -/
def insertKnown (rules : TextRules) (outgoing incoming : Passes)
    (index : InvertedIndex real) (docId : Nat) (doc : FlightDocument real) :
    Option (InvertedIndex real) := do
  let slot ← index.docs[docId]?
  -- by_key never points at a retired slot
  let old ← slot
  let freqs := termFreqs rules incoming.texts doc
  let newLen := (freqs.toList.map Prod.snd).sum
  let oldLen ← index.docLen[docId]?
  let others ← checkedSub index.totalLen oldLen
  some
    { index with
      docs := index.docs.set docId (some doc)
      totalLen := others + newLen
      docLen := index.docLen.set docId newLen
      postings := pushPostings incoming docId freqs
        (removePostings rules outgoing docId old index.postings) }

/-- A new aircraft takes the retired slot freed last, or appends. -/
def insertNew (rules : TextRules) (incoming : Passes)
    (index : InvertedIndex real) (doc : FlightDocument real) :
    Option (InvertedIndex real) := do
  let freqs := termFreqs rules incoming.texts doc
  let len := (freqs.toList.map Prod.snd).sum
  match index.free.getLast? with
  | some slot =>
      let docs ← assign index.docs slot (some doc)
      let docLen ← assign index.docLen slot len
      some
        { docs := docs
          docLen := docLen
          free := index.free.dropLast
          totalLen := index.totalLen + len
          byKey := index.byKey.insert doc.icao24 slot
          postings := pushPostings incoming slot freqs index.postings }
  | none =>
      some
        { docs := index.docs ++ [some doc]
          docLen := index.docLen ++ [len]
          free := index.free
          totalLen := index.totalLen + len
          byKey := index.byKey.insert doc.icao24 index.docs.length
          postings :=
            pushPostings incoming index.docs.length freqs index.postings }

/-- Upsert one document by `icao24`. -/
def insert (rules : TextRules) (outgoing incoming : Passes)
    (index : InvertedIndex real) (doc : FlightDocument real) :
    Option (InvertedIndex real) :=
  match index.byKey[doc.icao24]? with
  | some docId => insertKnown rules outgoing incoming index docId doc
  | none => insertNew rules incoming index doc

/-- Remove one aircraft; tells whether it was present. -/
def remove (rules : TextRules) (outgoing : Passes)
    (index : InvertedIndex real) (icao24 : String) :
    Option (InvertedIndex real × Bool) :=
  match index.byKey[icao24]? with
  | none => some (index, false)
  | some docId => do
      let slot ← index.docs[docId]?
      let doc ← slot
      let oldLen ← index.docLen[docId]?
      let others ← checkedSub index.totalLen oldLen
      some
        ({ docs := index.docs.set docId none
           postings := removePostings rules outgoing docId doc index.postings
           byKey := index.byKey.erase icao24
           free := index.free ++ [docId]
           docLen := index.docLen.set docId 0
           totalLen := others }, true)

end InvertedIndex

/-! ## Search -/

/-- The floating-point operations and constants of the score. -/
structure Arithmetic (real : Type) where
  ofNat : Nat → real
  half : real
  add : real → real → real
  sub : real → real → real
  mul : real → real → real
  div : real → real → real
  ln : real → real
  k1 : real
  b : real

/-- A document with its score. -/
structure ScoredHit (real : Type) where
  doc : FlightDocument real
  score : real

/-- The hits within the limit, and the number of documents that matched. -/
structure SearchResults (real : Type) where
  totalMatched : Nat
  hits : List (ScoredHit real)

variable [LinearOrder real]

namespace Arithmetic

/-- The mean document length, at least one. -/
def avgdl (arith : Arithmetic real) (n totalLen : Nat) : real :=
  if n = 0 then
    arith.ofNat 1
  else
    max (arith.div (arith.ofNat totalLen) (arith.ofNat n)) (arith.ofNat 1)

omit [LinearOrder real] in
/-- The inverse document frequency of a term. -/
def idf (arith : Arithmetic real) (n df : Nat) : real :=
  let numerator := arith.add (arith.sub (arith.ofNat n) (arith.ofNat df))
    arith.half
  let denominator := arith.add (arith.ofNat df) arith.half
  arith.ln (arith.add (arith.ofNat 1) (arith.div numerator denominator))

/-- What one term adds to the score of a document: its inverse document
frequency times its saturated, length-normalized frequency. -/
def contribution (arith : Arithmetic real) (n totalLen df tf dl : Nat) :
    real :=
  let lengthRatio := arith.div (arith.mul arith.b (arith.ofNat dl))
    (arith.avgdl n totalLen)
  let denominator := arith.add (arith.ofNat tf)
    (arith.mul arith.k1
      (arith.add (arith.sub (arith.ofNat 1) arith.b) lengthRatio))
  let norm := arith.div
    (arith.mul (arith.ofNat tf) (arith.add arith.k1 (arith.ofNat 1)))
    denominator
  arith.mul (arith.idf n df) norm

end Arithmetic

/-- Score descending, ties broken by `icao24`. -/
def cmpScored (first second : ScoredHit real) : Ordering :=
  (compare second.score first.score).then
    (compare first.doc.icao24 second.doc.icao24)

def sortScored (hits : List (ScoredHit real)) : List (ScoredHit real) :=
  sortBy (fun first second => (cmpScored first second).isLE) hits

namespace InvertedIndex

omit [LinearOrder real] in
/-- Add a term's contribution to the score of a document. -/
def addScore (arith : Arithmetic real) (scores : Std.ExtTreeMap Nat real)
    (docId : Nat) (amount : real) : Std.ExtTreeMap Nat real :=
  scores.alter docId
    (fun score => some (arith.add (score.getD (arith.ofNat 0)) amount))

/-- Score every document that contains the term. -/
def scoreTerm (arith : Arithmetic real) (index : InvertedIndex real)
    (scores : Std.ExtTreeMap Nat real) (term : String) :
    Option (Std.ExtTreeMap Nat real) :=
  match index.postings[term]? with
  | some postings =>
      postings.foldlM
        (fun scores posting => do
          let dl ← index.docLen[posting.docId]?
          some (addScore arith scores posting.docId
            (arith.contribution index.byKey.size index.totalLen
              postings.length posting.termFreq dl)))
        scores
  | none => some scores

/-- Score the query's terms; a repeated term counts once. -/
def scoreTerms (arith : Arithmetic real) (index : InvertedIndex real) :
    List String → List String → Std.ExtTreeMap Nat real →
      Option (Std.ExtTreeMap Nat real)
  | [], _, scores => some scores
  | term :: rest, seenTerms, scores =>
      if term ∈ seenTerms then
        scoreTerms arith index rest seenTerms scores
      else do
        let scores ← scoreTerm arith index scores term
        scoreTerms arith index rest (term :: seenTerms) scores

/-- Documents that contain any query term, best first; the limit zero means no
limit. -/
def search (rules : TextRules) (arith : Arithmetic real)
    (order : IterationOrder (Nat × real)) (index : InvertedIndex real)
    (query : String) (limit : Nat) : Option (SearchResults real) :=
  let terms := tokenize rules query
  if terms.isEmpty then
    some ⟨0, []⟩
  else do
    let scores ← scoreTerms arith index terms [] ∅
    let hits ← (order.arrange scores.toList).mapM
      (fun entry => do
        let slot ← index.docs[entry.1]?
        -- postings never reference a retired slot
        let doc ← slot
        some (⟨doc, entry.2⟩ : ScoredHit real))
    some ⟨scores.size, truncate limit (sortScored hits)⟩

end InvertedIndex

end AetherEngine.Shard
