import Std.Data.ExtTreeMap

/-!
# Documents and search messages

The messages nodes exchange about documents, as the wire format declares them.
Floating-point fields range over an arbitrary type `real`; a message field that
may be absent is an option.  Counts of things that sit in one message are
natural numbers, a count taken from the wire has its fixed width.
-/

namespace AetherEngine.Common

/-- One observation of an aircraft.  The transponder address `icao24` is the
document's identity. -/
structure FlightDocument (real : Type) where
  icao24 : String
  callsign : String
  observedAt : Int
  latitude : real
  longitude : real
  altitude : real
  origin : String
  destination : String
  aircraftType : String
  velocity : real
  heading : real
  verticalRate : real
  onGround : Bool
  tenantId : String
  text : Std.ExtTreeMap String String
  number : Std.ExtTreeMap String real
deriving Inhabited

/-- Which index matched a hit. -/
inductive IndexKind where
  | unspecified
  | keyword
  | vector
deriving DecidableEq, Repr

/-- The account of a single result, attached by the shard that found it. -/
structure HitProvenance (real : Type) where
  sourceGroup : String
  observedAt : Int
  index : IndexKind
  score : real
  owningVshard : Int

structure SearchHit (real : Type) where
  document : Option (FlightDocument real)
  score : real
  provenance : Option (HitProvenance real)

/-- A shard that was asked but did not answer, and why. -/
structure OmittedShard where
  address : String
  reason : String
deriving DecidableEq, Repr

/-- The account of a whole query. -/
structure QueryManifest where
  shardsQueried : Nat
  shardsAnswered : Nat
  omitted : List OmittedShard
  deduped : Nat
  freshestObservedAt : Int
  stalestObservedAt : Int
  elapsedMs : UInt64
  placementVersion : UInt64
deriving DecidableEq, Repr

/-- A shard's reply, or the merged reply of several. -/
structure SearchResponse (real : Type) where
  hits : List (SearchHit real)
  totalMatched : UInt64
  shardId : String
  shardsQueried : Nat
  shardsAnswered : Nat
  manifest : Option QueryManifest

/-- A progressive result, sent while shards still report. -/
structure SearchUpdate (real : Type) where
  hits : List (SearchHit real)
  totalMatched : UInt64
  shardsAnswered : Nat
  shardsQueried : Nat
  complete : Bool
  manifest : Option QueryManifest

/-! ## The shard group's log -/

/-- A batch of documents; also the format of a snapshot. -/
structure ReplicateRequest (real : Type) where
  documents : List (FlightDocument real)
  shardId : UInt32

/-- Evict every document of a virtual shard, counted modulo `v`. -/
structure EvictVShard where
  vshard : UInt32
  v : UInt32
deriving DecidableEq, Repr

/-- One entry of a shard group's log. -/
inductive ShardCommandKind (real : Type) where
  | batch (request : ReplicateRequest real)
  | evict (request : EvictVShard)

structure ShardCommand (real : Type) where
  kind : Option (ShardCommandKind real)

end AetherEngine.Common
