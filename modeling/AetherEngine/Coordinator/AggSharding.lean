import AetherEngine.Coordinator.Agg

/-!
# Aggregates over any sharding

Counts and buckets are machine words and do not depend on how the documents are
split.  The digest is computed in 64-bit floating point: it weighs one for every
document with a finite value, unless huge values of both signs overflow into a
mean that is not a number, and the next sort panics.
-/

namespace AetherEngine.Coordinator

open AetherEngine.Common
open AetherEngine.Doubles
open AetherEngine.Floats
open AetherEngine.Ranking
open AetherEngine.Rounding
open AetherEngine.Shard

variable (rules : FloatRules F64) (request : AggregateRequest F64)

variable {rules request}

end AetherEngine.Coordinator
