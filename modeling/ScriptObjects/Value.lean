import ScriptObjects.Heap
import ScriptObjects.Number.Binary64

/-!
# Script values

A value is a primitive or a handle: tables, functions, instances and host objects
have an identity, and two values of these kinds are the same exactly when they are
the same thing.  Primitives are compared by what they stand for, an integer and a
float as floats.
-/

namespace ScriptObjects

set_option autoImplicit false

/-- A dynamically typed value. -/
inductive Value where
  | null
  | bool (value : Bool)
  | int (value : Int64)
  | float (value : Float)
  | text (value : String)
  | table (id : TableId)
  | function (id : CallableId)
  | object (id : InstanceId)
  | host (id : HostId)
  deriving DecidableEq, Inhabited

namespace Value

/-- Null and false are falsy; everything else is truthy. -/
def isTruthy : Value → Bool
  | .null | .bool false => false
  | _ => true

def isNull : Value → Bool
  | .null => true
  | _ => false

def asBool? : Value → Option Bool
  | .bool b => some b
  | _ => none

def asInt? : Value → Option Int64
  | .int i => some i
  | _ => none

/-- The numeric value, an integer widened to a float. -/
def asFloat? : Value → Option Float
  | .int i => some (Number.ofWord i)
  | .float f => some f
  | _ => none

def asText? : Value → Option String
  | .text s => some s
  | _ => none

def asTable? : Value → Option TableId
  | .table t => some t
  | _ => none

def asFunction? : Value → Option CallableId
  | .function c => some c
  | _ => none

def asObject? : Value → Option InstanceId
  | .object i => some i
  | _ => none

def asHost? : Value → Option HostId
  | .host h => some h
  | _ => none

/-- Equality of primitives by value, and of everything else by identity. -/
def identical : Value → Value → Bool
  | .null, .null => true
  | .bool a, .bool b => a = b
  | .int a, .int b => a = b
  | .int a, .float b => Number.ofWord a == b
  | .float a, .int b => a == Number.ofWord b
  | .float a, .float b => a == b
  | .text a, .text b => a = b
  | .table a, .table b => a = b
  | .function a, .function b => a = b
  | .object a, .object b => a = b
  | .host a, .host b => a = b
  | _, _ => false

end Value

end ScriptObjects
