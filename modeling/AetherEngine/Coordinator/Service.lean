import AetherEngine.Common.Filter
import AetherEngine.Coordinator.Fanout
import AetherEngine.Coordinator.Registry

/-!
# The coordinator's search service

A query is checked, fanned out to the leader of every shard and merged.  The
network is a parameter: it tells how each task of a fan-out ends.  A handler's
result names the leaders it contacted next to its answer.
-/

namespace AetherEngine.Coordinator

open AetherEngine.Common
open AetherEngine.Ranking

variable {real : Type}

/-! ## Authorization -/

inductive Scope where
  | read
  | operator
deriving DecidableEq, Repr

namespace Scope

def rank : Scope → Nat
  | read => 1
  | operator => 2

def satisfies (held needed : Scope) : Bool :=
  needed.rank ≤ held.rank

def display : Scope → String
  | read => "Read"
  | operator => "Operator"

end Scope

/-- The scoped tokens; disabled without a token file. -/
structure Auth where
  tokens : Std.ExtTreeMap String Scope
  enabled : Bool

namespace Auth

/-- The token of a bearer credential. -/
def bearerToken (credential : String) : Option String :=
  if credential.toList.take 7 = "Bearer ".toList then
    some (String.ofList (credential.toList.drop 7))
  else
    none

/-- The caller's credential must grant at least the needed scope. -/
def require (auth : Auth) (authorization : Option String)
    (needed : Scope) : Except Status Unit :=
  if auth.enabled then
    match authorization.bind bearerToken with
    | none => .error (.unauthenticated "missing bearer token")
    | some token =>
        match auth.tokens[token]? with
        | none => .error (.unauthenticated "unknown token")
        | some scope =>
            if scope.satisfies needed then
              .ok ()
            else
              .error (.permissionDenied (needed.display ++ " scope required"))
  else
    .ok ()

end Auth

/-! ## Fan-out -/

/-- How the task that queries one leader ends. -/
inductive Attempt (α : Type) where
  | answered (outcome : Except Status α)
  | unreachable
  | timedOut
  | panicked

def omittedShard (address reason : String) : OmittedShard :=
  { address := address, reason := reason }

/-- What a task hands back; nothing after a panic.  A leader that answers with
an error counts as unreachable. -/
def Attempt.joined {α : Type} (address : String) :
    Attempt α → Option (Except OmittedShard α)
  | answered (.ok response) => some (.ok response)
  | answered (.error _) => some (.error (omittedShard address "unreachable"))
  | unreachable => some (.error (omittedShard address "unreachable"))
  | timedOut => some (.error (omittedShard address "timeout"))
  | panicked => none

/-- What the tasks of a fan-out hand back, in the order they finish. -/
def joinAll {α : Type} (arrival : IterationOrder (String × Nat))
    (attempt : Nat → String → Attempt α) (leaders : List String) :
    List (Option (Except OmittedShard α)) :=
  (arrival.arrange leaders.zipIdx).map
    (fun task => (attempt task.2 task.1).joined task.1)

def answerOf {α : Type} : Option (Except OmittedShard α) → Option α
  | some (.ok response) => some response
  | _ => none

def omissionOf {α : Type} :
    Option (Except OmittedShard α) → Option OmittedShard
  | some (.error omitted) => some omitted
  | _ => none

/-- Query every leader and collect the responses that succeed. -/
def scatterGather (arrival : IterationOrder (String × Nat))
    (attempt : Nat → String → Attempt (SearchResponse real))
    (leaders : List String) : Fanout real :=
  let outcomes := joinAll arrival attempt leaders
  { responses := outcomes.filterMap answerOf
    omitted := outcomes.filterMap omissionOf }

/-! ## Handlers -/

/-- How the `n`th task of a fan-out to a leader ends. -/
structure Network (real : Type) where
  search : Nat → String → SearchRequest real → Attempt (SearchResponse real)
  vectorSearch :
    Nat → String → VectorSearchRequest real → Attempt (SearchResponse real)
  aggregate :
    Nat → String → AggregateRequest real → Attempt (AggregateResponse real)

/-- A handler's result and the leaders it contacted. -/
structure Handled (α : Type) where
  contacted : List String
  outcome : Except Status α

/-- The circumstances of one query. -/
structure QueryCall (real : Type) where
  leaders : IterationOrder (UInt32 × NodeInfo)
  arrival : IterationOrder (String × Nat)
  /-- The pass over the deduplication map of the `n`th merge. -/
  order : Nat → IterationOrder (SearchHit real)
  elapsedMs : UInt64

/-- The coordinator as the query handlers see it. -/
structure CoordinatorService where
  registry : Registry
  auth : Auth

/-- Leader addresses for query fan-out. -/
def Registry.leaderAddresses (registry : Registry)
    (order : IterationOrder (UInt32 × NodeInfo)) : List String :=
  (order.arrange registry.leaders.toList).map (fun entry => entry.2.address)

def Handled.refused {α : Type} (status : Status) : Handled α :=
  { contacted := [], outcome := .error status }

/-- The checks before a query: the caller's scope, then the filter. -/
def admitted {α : Type} (service : CoordinatorService)
    (floats : FloatRules real) (authorization : Option String)
    (filter : Option (Common.Filter real)) (handle : Handled α) : Handled α :=
  match service.auth.require authorization .read with
  | .error status => .refused status
  | .ok () =>
      match checkFilter floats filter with
      | .error status => .refused status
      | .ok () => handle

variable [LinearOrder real]

namespace CoordinatorService

/-- Keyword search. -/
def search (floats : FloatRules real) (network : Network real)
    (call : QueryCall real) (service : CoordinatorService)
    (authorization : Option String) (request : SearchRequest real) :
    Handled (SearchResponse real) :=
  admitted service floats authorization request.filter
    (let leaders := service.registry.leaderAddresses call.leaders
     let fanout := scatterGather call.arrival
       (fun number address => network.search number address request) leaders
     { contacted := leaders
       outcome := .ok (mergeSearchResponses (call.order 0) fanout
         request.limit.toNat leaders.length
         service.registry.placementVersion.toUInt64 call.elapsedMs) })

/-- Vector search. -/
def vectorSearch (floats : FloatRules real) (network : Network real)
    (call : QueryCall real) (service : CoordinatorService)
    (authorization : Option String) (request : VectorSearchRequest real) :
    Handled (SearchResponse real) :=
  admitted service floats authorization request.filter
    (let leaders := service.registry.leaderAddresses call.leaders
     let fanout := scatterGather call.arrival
       (fun number address => network.vectorSearch number address request)
       leaders
     { contacted := leaders
       outcome := .ok (mergeSearchResponses (call.order 0) fanout
         request.limit.toNat leaders.length
         service.registry.placementVersion.toUInt64 call.elapsedMs) })

/-- One finished task of a streaming query: an answer is folded in and sent on,
an omission is recorded. -/
def streamArrival (order : IterationOrder (SearchHit real))
    (progress : ProgressiveMerge real × List (SearchUpdate real)) :
    Option (Except OmittedShard (SearchResponse real)) →
      ProgressiveMerge real × List (SearchUpdate real)
  | some (.ok response) =>
      let merge := progress.1.add order response
      (merge, progress.2 ++ [merge.snapshot false 0])
  | some (.error omitted) => (progress.1.omitShard omitted, progress.2)
  | none => progress

/-- Progressive search: the updates a client that stays receives. -/
def searchStream (network : Network real) (call : QueryCall real)
    (service : CoordinatorService) (authorization : Option String)
    (request : SearchRequest real) : Handled (List (SearchUpdate real)) :=
  match service.auth.require authorization .read with
  | .error status => .refused status
  | .ok () =>
      let leaders := service.registry.leaderAddresses call.leaders
      let outcomes := joinAll call.arrival
        (fun number address => network.search number address request) leaders
      let (merge, updates) := outcomes.zipIdx.foldl
        (fun progress outcome =>
          streamArrival (call.order outcome.2) progress outcome.1)
        (.new leaders.length request.limit.toNat
          service.registry.placementVersion.toUInt64, [])
      { contacted := leaders
        outcome := .ok (updates ++ [merge.snapshot true call.elapsedMs]) }

end CoordinatorService

end AetherEngine.Coordinator
