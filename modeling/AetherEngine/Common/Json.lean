import AetherEngine.Common.Filter

/-!
# JSON values

The values connectors and tools receive, as the JSON library hands them over: a
number keeps whether it was written as an integer, an object is a list of fields
in key order.  Numbers are finite; those that are integers are converted to
floating point when they are read as such.
-/

namespace AetherEngine.Common

variable {real : Type}

inductive JsonNumber (real : Type) where
  | posInt (value : UInt64)
  | negInt (value : Int64) (negative : value < 0)
  | float (value : real)
deriving DecidableEq, Repr

inductive Json (real : Type) where
  | null
  | bool (value : Bool)
  | number (value : JsonNumber real)
  | string (value : String)
  | array (items : List (Json real))
  | object (fields : List (String × Json real))

/-- A number read as floating point; none of them fails to be read so. -/
def JsonNumber.asF64 (floats : FloatRules real) : JsonNumber real → real
  | posInt value => floats.ofInt value.toNat
  | negInt value _ => floats.ofInt value.toInt
  | float value => value

namespace Json

def isNull : Json real → Bool
  | null => true
  | _ => false

/-- The value of a field; anything but an object has no fields. -/
def get : Json real → String → Option (Json real)
  | object fields, key => fields.lookup key
  | _, _ => none

def asStr : Json real → Option String
  | string value => some value
  | _ => none

def asF64 (floats : FloatRules real) : Json real → Option real
  | number value => some (value.asF64 floats)
  | _ => none

def asBool : Json real → Option Bool
  | bool value => some value
  | _ => none

def asArray : Json real → Option (List (Json real))
  | array items => some items
  | _ => none

def asObject : Json real → Option (List (String × Json real))
  | object fields => some fields
  | _ => none

end Json

end AetherEngine.Common
