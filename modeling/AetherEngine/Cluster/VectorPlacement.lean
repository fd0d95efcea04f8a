import AetherEngine.Cluster.RaftPlacement
import AetherEngine.Shard.VectorReplicas

/-!
# Vector search of a cluster of Raft groups

Every shard answers a vector search from the vector index of one member.  While
the placement stays as it is and the shards are small enough to be scanned, the
nearest documents of the cluster are the nearest of one table, if no score is
other than a number.
-/

namespace AetherEngine.Cluster

open AetherEngine.Common
open AetherEngine.Coordinator
open AetherEngine.Federation
open AetherEngine.Ranking
open AetherEngine.Shard
open AetherEngine.Tables
open AetherEngine.Traces

variable {single real : Type} {parts : VectorParts single real}
variable {orders : Nat → IterationOrder String} {rules : TextRules}

/-! ## What one shard answers -/

/-- The text each aircraft was embedded from. -/
def textsOf (state : (vectorSide real parts.engine orders).State) :
    String → String :=
  (state.1.map VectorIndex.textOf).getD (fun _ => "")

section Nearest

variable [LinearOrder real]

/-- All documents of a shard that pass a filter, nearest first. -/
def nearest (floats : FloatRules real)
    (shard : AnsweringShard rules (vectorSide real parts.engine orders))
    (query : List single) (filter : Option (Common.Filter real)) :
    List (SearchHit real) :=
  ((sortScored (shard.documents.toList.map (VectorIndex.hitOf parts
      (textsOf shard.service.store.vector) query))).filter
        (fun hit => Filter.passes floats hit.doc filter)).map
          (fun hit => shard.service.hit hit.doc hit.score .vector)

variable {shard : AnsweringShard rules (vectorSide real parts.engine orders)}
variable {floats : FloatRules real} {query : List single}
variable {filter : Option (Common.Filter real)}

variable {ties : IterationOrder (Nat × Nat)} {dim : Nat}
variable {narrow : real → single}

end Nearest

/-! ## What the cluster answers -/

section Search

variable [LinearOrder real]

variable {Member : Type} [DecidableEq Member]

end Search

/-! ## Two groups that embed the length of a text -/

namespace TwoVectorGroups

open AetherEngine.Coordinator.Move (latin coordinator)
open TwoSlices (passes call)
open TwoGroups (ingested keepsSlice_ingested)

def lengths : VectorParts Int Int :=
  scanParts (fun text => [(text.length : Int)])

def textLengths : VectorSide Int :=
  vectorSide Int lengths.engine (fun _ => .asStored)

def whole : FloatRules Int where
  ofInt time := time
  nan := 0
  le first second := first ≤ second
  lt first second := first < second
  display := toString

def flight (aircraft callsign : String) : FlightDocument Int :=
  { (default : FlightDocument Int) with
    icao24 := aircraft
    callsign := callsign }

def flights : List (FlightDocument Int) :=
  [flight "aaa" "UAL1", flight "bbb" "UAL23"]

def ingestedBy (mine : Ownership) :
    Option (RaftGroup latin textLengths Bool) :=
  replay RaftGroup.step (.begin fun _ => mine) (ingested flights)

/-- The first member answers. -/
def steady (mine : Ownership)
    (runs : (ingestedBy mine).isSome = true) :
    SteadyShard latin textLengths Bool where
  shard :=
    { service :=
        { store := (((ingestedBy mine).get runs).member true).copy.state.store
          shardId := "group"
          assignments := none }
      documents :=
        (((ingestedBy mine).get runs).member true).copy.state.contents
      holds := (((ingestedBy mine).get
        runs).member true).copy.state.holds_contents
      order := .asStored }
  ownership := fun _ => mine
  events := ingested flights
  group := (ingestedBy mine).get runs
  leads := (Option.some_get runs).symm
  member := true
  serves := rfl
  mine := mine
  shared := rfl
  fixed := keepsSlice_ingested flights mine

def first : SteadyShard latin textLengths Bool :=
  steady (.mapped 0 [0, 1]) (by decide +kernel)

def second : SteadyShard latin textLengths Bool :=
  steady (.mapped 1 [0, 1]) (by decide +kernel)

def network : Cluster latin textLengths where
  reached number _ := .ok (if number = 0 then first.shard else second.shard)
  otherCalls :=
    { search := fun _ _ _ => .unreachable
      vectorSearch := fun _ _ _ => .unreachable
      aggregate := fun _ _ _ => .unreachable }

theorem answering_network :
    network.answering coordinator (call Int) =
      [first, second].map (fun steady => steady.shard) := by
  have leaders : coordinator.registry.leaderAddresses .asStored =
      ["http://a", "http://b"] := by
    decide +kernel
  rw [Cluster.answering, call, leaders]
  rfl

end TwoVectorGroups

end AetherEngine.Cluster
