import AetherEngine.Common.Filter
import AetherEngine.Common.TDigest
import AetherEngine.Shard.Server

/-!
# A shard's part of an aggregate

One pass over the matching documents gives a partial aggregate: a count, the
counts of buckets and, for percentiles, a digest.  The texts that name the
buckets of numbers are parameters.
-/

namespace AetherEngine.Shard

open AetherEngine.Common
open AetherEngine.Ranking

variable {real : Type}

/-! ## Fields -/

/-- A text field's value; the aircraft's identity is not one of them. -/
def textField (doc : FlightDocument real) (field : String) : Option String :=
  if field = "callsign" then some doc.callsign
  else if field = "origin" then some doc.origin
  else if field = "destination" then some doc.destination
  else if field = "aircraft_type" then some doc.aircraftType
  else if field = "tenant_id" then some doc.tenantId
  else doc.text[field]?

def numericField (rules : FloatRules real) (doc : FlightDocument real)
    (field : String) : Option real :=
  if field = "altitude" then some doc.altitude
  else if field = "velocity" then some doc.velocity
  else if field = "heading" then some doc.heading
  else if field = "vertical_rate" then some doc.verticalRate
  else if field = "latitude" then some doc.latitude
  else if field = "longitude" then some doc.longitude
  else if field = "observed_at" then some (rules.ofInt doc.observedAt)
  else doc.number[field]?

/-! ## The pass -/

/-- The bucket a document counts in. -/
def bucketOf (rules : FloatRules real) (text : BucketText real)
    (request : AggregateRequest real) (doc : FlightDocument real) :
    Option String :=
  match request.kind with
  | .unspecified => none
  | .count => none
  | .valueCounts => textField doc request.field
  | .timeHistogram =>
      some (text.bucketKey (rules.ofInt doc.observedAt) request.interval)
  | .numericHistogram =>
      (numericField rules doc request.field).map
        (fun value => text.bucketKey value request.interval)
  | .geoGrid =>
      some (text.geoCell doc.latitude doc.longitude request.interval)
  | .percentiles => none

/-- The sample a document adds to the digest. -/
def sampleOf (rules : FloatRules real) (request : AggregateRequest real)
    (doc : FlightDocument real) : Option real :=
  match request.kind with
  | .percentiles => numericField rules doc request.field
  | _ => none

/-- What the pass has gathered. -/
structure Gathered (real : Type) where
  count : UInt64
  buckets : Std.ExtTreeMap String UInt64
  digest : TDigest real

def countBucket (buckets : Std.ExtTreeMap String UInt64) :
    Option String → Std.ExtTreeMap String UInt64
  | some key => addTo buckets key 1
  | none => buckets

def addSample (floats : DigestFloats real) (digest : TDigest real) :
    Option real → Option (TDigest real)
  | some sample => digest.add floats sample
  | none => some digest

/-- Take in one document. -/
def gather (floats : DigestFloats real) (rules : FloatRules real)
    (text : BucketText real) (request : AggregateRequest real)
    (gathered : Gathered real) (doc : FlightDocument real) :
    Option (Gathered real) := do
  let digest ← addSample floats gathered.digest (sampleOf rules request doc)
  some
    { count := gathered.count + 1
      buckets := countBucket gathered.buckets (bucketOf rules text request doc)
      digest := digest }

/-- The digest of a finished pass, sent for percentiles only. -/
def sentDigest (floats : DigestFloats real) (kind : AggKind)
    (digest : TDigest real) : Option (Option (DigestMessage real)) :=
  if kind = .percentiles then
    (digest.toParts floats).map
      (fun sent => some { centroidMean := sent.2.1, centroidWeight := sent.2.2 })
  else
    some none

/-- The partial aggregate of documents. -/
def summarize (floats : DigestFloats real) (rules : FloatRules real)
    (text : BucketText real) (docs : List (FlightDocument real))
    (request : AggregateRequest real) : Option (AggregatePartial real) := do
  let gathered ← docs.foldlM (gather floats rules text request)
    { count := 0, buckets := ∅, digest := .new floats }
  let digest ← sentDigest floats request.kind gathered.digest
  some
    { kind := request.kind
      count := gathered.count
      buckets := gathered.buckets
      digest := digest }

/-! ## The handler -/

variable {vectors : VectorSide real}

/-- Documents to aggregate: a blank query means all of them. -/
def ShardStore.matching [LinearOrder real] (isWhitespace : Char → Bool)
    (rules : TextRules) (arith : Arithmetic real)
    (order : IterationOrder (Nat × real)) (store : ShardStore real vectors)
    (query : String) : Option (List (FlightDocument real)) :=
  if query.toList.all isWhitespace then
    some store.documents
  else do
    let results ← store.search rules arith order query 0
    some (results.hits.map ScoredHit.doc)

/-- The shard's partial aggregate over the documents that match and pass. -/
def ShardSearchService.aggregate [LinearOrder real]
    (isWhitespace : Char → Bool) (texts : TextRules)
    (arith : Arithmetic real) (floats : DigestFloats real)
    (rules : FloatRules real) (text : BucketText real)
    (order : IterationOrder (Nat × real))
    (service : ShardSearchService real vectors)
    (request : AggregateRequest real) :
    Option (Except Status (AggregateResponse real)) :=
  match checkFilter rules request.filter with
  | .error status => some (.error status)
  | .ok () => do
      let matched ← service.store.matching isWhitespace texts arith order
        request.query
      let summary ← summarize floats rules text
        (matched.filter (fun doc => Filter.passes rules doc request.filter))
        request
      some (.ok
        { summary := some summary, percentiles := [], manifest := none })

end AetherEngine.Shard
