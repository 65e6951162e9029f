import ScriptObjects.Host.HostType
import ScriptObjects.Value

/-!
# Host objects

A host object has a type and a payload of that type.  Vectors and counters are
mutable and shared by everyone who holds a handle to them; the others never
change.
-/

namespace ScriptObjects

set_option autoImplicit false

/-- A host object: its payload, which fixes its type. -/
inductive HostObject where
  | vector (x y : Float)
  | counter (count : Int64)
  | int64 (value : Int64)
  | int32 (value : Int32)
  | byte (value : UInt8)
  | boolean (value : Bool)
  | float64 (value : Float)
  | text (value : String)
  | staticText
  | unit
  | dynamic (value : Value)
  deriving DecidableEq

namespace HostObject

instance : Inhabited HostObject := ⟨.unit⟩

def type : HostObject → HostType
  | .vector .. => .vector
  | .counter _ => .counter
  | .int64 _ => .int64
  | .int32 _ => .int32
  | .byte _ => .byte
  | .boolean _ => .boolean
  | .float64 _ => .float64
  | .text _ => .text
  | .staticText => .staticText
  | .unit => .unit
  | .dynamic _ => .dynamic

/-- The text that every static text object holds. -/
def staticContent : String := "static"

/-- The host object of a type made from script values, where they fit. -/
def ofValues? : HostType → List Value → Option HostObject
  | .vector, [x, y] => do return .vector (← x.asFloat?) (← y.asFloat?)
  | .counter, [.int n] => some (.counter n)
  | .int64, [.int n] => some (.int64 n)
  | .int32, [.int n] => some (.int32 n.toInt32)
  | .byte, [.int n] => some (.byte n.toUInt64.toUInt8)
  | .boolean, [.bool b] => some (.boolean b)
  | .float64, [x] => x.asFloat?.map .float64
  | .text, [.text s] => some (.text s)
  | .staticText, [] => some .staticText
  | .unit, [] => some .unit
  | .dynamic, [value] => some (.dynamic value)
  | _, _ => none

/-- The value a host object of a primitive type converts to directly. -/
def directValue? : HostObject → Option Value
  | .unit => some .null
  | .boolean b => some (.bool b)
  | .int64 n => some (.int n)
  | .int32 n => some (.int n.toInt64)
  | .float64 x => some (.float x)
  | .text s => some (.text s)
  | .staticText => some (.text staticContent)
  | .dynamic value => some value
  | .vector .. | .counter _ | .byte _ => none

end HostObject

end ScriptObjects
