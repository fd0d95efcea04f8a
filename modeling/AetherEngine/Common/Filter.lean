import AetherEngine.Common.Messages

/-!
# Structured filters

A filter is a conjunction of tests on columns.  Its shape is checked once, and
documents are then tested against it.  A name outside the built-in columns is a
generic field, found in the document's own maps.

Floating-point comparison is a parameter: it is not a total order, since a
missing numeric field counts as "not a number" and compares with nothing.
-/

namespace AetherEngine.Common

variable {real : Type}

/-- What filters use of floating-point numbers. -/
structure FloatRules (real : Type) where
  ofInt : Int → real
  nan : real
  /-- `first <= second`; never with a number that is not one. -/
  le : real → real → Bool
  /-- `first < second`; never with a number that is not one. -/
  lt : real → real → Bool
  display : real → String

namespace FloatRules

/-- `first == second`: the zeros are equal, and a number that is not one equals
nothing. -/
def equal (floats : FloatRules real) (first second : real) : Bool :=
  floats.le first second && floats.le second first

/-- What the standard says of the comparisons. -/
structure Lawful (floats : FloatRules real) : Prop where
  le_nan : ∀ value, floats.le value floats.nan = false
  lt_irrefl : ∀ value, floats.lt value value = false

end FloatRules

/-- The document with every field at its wire default. -/
def defaultDocument (floats : FloatRules real) : FlightDocument real where
  icao24 := ""
  callsign := ""
  observedAt := 0
  latitude := floats.ofInt 0
  longitude := floats.ofInt 0
  altitude := floats.ofInt 0
  origin := ""
  destination := ""
  aircraftType := ""
  velocity := floats.ofInt 0
  heading := floats.ofInt 0
  verticalRate := floats.ofInt 0
  onGround := false
  tenantId := ""
  text := ∅
  number := ∅

/-- Inclusive bounds; an absent bound is open. -/
structure NumericRange (real : Type) where
  min : Option real
  max : Option real

inductive FilterTest (real : Type) where
  | equals (want : String)
  | range (bounds : NumericRange real)
  | is (want : Bool)

structure FilterCondition (real : Type) where
  field : String
  test : Option (FilterTest real)

/-- All conditions must hold; no condition filters nothing. -/
structure Filter (real : Type) where
  conditions : List (FilterCondition real)

namespace Filter

def textFields : List String :=
  ["callsign", "origin", "destination", "aircraft_type", "tenant_id", "icao24"]

def numericFields : List String :=
  ["altitude", "velocity", "heading", "vertical_rate", "latitude",
    "longitude", "observed_at"]

def boolFields : List String :=
  ["on_ground"]

/-- A range must not be empty. -/
def validateRange (floats : FloatRules real) (field : String)
    (bounds : NumericRange real) : Except String Unit :=
  match bounds.min, bounds.max with
  | some min, some max =>
      if floats.lt max min then
        .error ("'" ++ field ++ "' range has min " ++ floats.display min ++
          " > max " ++ floats.display max)
      else
        .ok ()
  | _, _ => .ok ()

/-- A condition on a built-in column must have the column's kind of test. -/
def validateCondition (floats : FloatRules real)
    (condition : FilterCondition real) : Except String Unit :=
  let field := condition.field
  match condition.test with
  | some (.equals _) =>
      if field ∈ numericFields ∨ field ∈ boolFields then
        .error ("'" ++ field ++
          "' is not a text field (equals applies to text/generic fields)")
      else
        .ok ()
  | some (.range bounds) =>
      if field ∈ textFields ∨ field ∈ boolFields then
        .error ("'" ++ field ++
          "' is not a numeric field (range applies to numeric/generic fields)")
      else
        validateRange floats field bounds
  | some (.is _) =>
      if field ∉ boolFields then
        .error ("'" ++ field ++ "' is not a boolean field (is applies to: " ++
          ", ".intercalate boolFields ++ ")")
      else
        .ok ()
  | none => .error ("condition on '" ++ field ++ "' has no test")

/-- Check the conditions in turn; the first error is reported. -/
def validate (floats : FloatRules real) (filter : Filter real) :
    Except String Unit :=
  filter.conditions.forM (validateCondition floats)

def textValue (doc : FlightDocument real) (field : String) : String :=
  if field = "callsign" then doc.callsign
  else if field = "origin" then doc.origin
  else if field = "destination" then doc.destination
  else if field = "aircraft_type" then doc.aircraftType
  else if field = "tenant_id" then doc.tenantId
  else if field = "icao24" then doc.icao24
  else doc.text[field]?.getD ""

def numericValue (floats : FloatRules real) (doc : FlightDocument real)
    (field : String) : real :=
  if field = "altitude" then doc.altitude
  else if field = "velocity" then doc.velocity
  else if field = "heading" then doc.heading
  else if field = "vertical_rate" then doc.verticalRate
  else if field = "latitude" then doc.latitude
  else if field = "longitude" then doc.longitude
  else if field = "observed_at" then floats.ofInt doc.observedAt
  else doc.number[field]?.getD floats.nan

/-- Equal up to the case of ASCII letters. -/
def eqIgnoreAsciiCase (first second : String) : Bool :=
  first.toList.map Char.toLower = second.toList.map Char.toLower

def conditionHolds (floats : FloatRules real) (doc : FlightDocument real)
    (condition : FilterCondition real) : Bool :=
  match condition.test with
  | some (.equals want) =>
      eqIgnoreAsciiCase (textValue doc condition.field) want
  | some (.range bounds) =>
      let value := numericValue floats doc condition.field
      bounds.min.all (fun min => floats.le min value) &&
        bounds.max.all (fun max => floats.le value max)
  | some (.is want) => doc.onGround = want
  | none => false

/-- Does the document pass?  An absent filter passes everything. -/
def passes (floats : FloatRules real) (doc : FlightDocument real) :
    Option (Filter real) → Bool
  | none => true
  | some filter => filter.conditions.all (conditionHolds floats doc)

end Filter

/-! ## Requests -/

structure SearchRequest (real : Type) where
  query : String
  limit : UInt32
  filter : Option (Filter real)

structure VectorSearchRequest (real : Type) where
  vector : List real
  limit : UInt32
  filter : Option (Filter real)

inductive AggKind where
  | unspecified
  | count
  | valueCounts
  | timeHistogram
  | numericHistogram
  | geoGrid
  | percentiles
deriving DecidableEq, Repr

structure AggregateRequest (real : Type) where
  query : String
  kind : AggKind
  field : String
  interval : real
  percentiles : List real
  filter : Option (Filter real)

/-- A digest on the wire: parallel lists of means and weights. -/
structure DigestMessage (real : Type) where
  centroidMean : List real
  centroidWeight : List real

/-- A shard's part of an aggregate; also the merged result. -/
structure AggregatePartial (real : Type) where
  kind : AggKind
  count : UInt64
  buckets : Std.ExtTreeMap String UInt64
  digest : Option (DigestMessage real)

structure Percentile (real : Type) where
  p : real
  value : real

structure AggregateResponse (real : Type) where
  summary : Option (AggregatePartial real)
  percentiles : List (Percentile real)
  manifest : Option QueryManifest

/-- The texts that name buckets. -/
structure BucketText (real : Type) where
  /-- The bucket of a value, under an interval. -/
  bucketKey : real → real → String
  /-- The cell of a latitude and a longitude, under a cell size. -/
  geoCell : real → real → real → String

/-- Count into a bucket. -/
def addTo (buckets : Std.ExtTreeMap String UInt64) (key : String)
    (amount : UInt64) : Std.ExtTreeMap String UInt64 :=
  buckets.alter key (fun count => some (count.getD 0 + amount))

/-- How a call fails. -/
inductive Status where
  | invalidArgument (message : String)
  | unauthenticated (message : String)
  | permissionDenied (message : String)
  | unavailable (message : String)
  | internal (message : String)
deriving DecidableEq, Repr

/-- The check every handler makes of a filter before it does anything. -/
def checkFilter (floats : FloatRules real) :
    Option (Filter real) → Except Status Unit
  | none => .ok ()
  | some filter =>
      match filter.validate floats with
      | .error message => .error (.invalidArgument message)
      | .ok () => .ok ()

end AetherEngine.Common
