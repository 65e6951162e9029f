/-!
# Host types

The types of objects that the host lends to scripts.  Each has a short tag, used
where host objects are written down, and the full name the host gives it, used in
type names and faults.
-/

namespace ScriptObjects

set_option autoImplicit false

/-- The type of a host object. -/
inductive HostType where
  /-- A mutable pair of coordinates. -/
  | vector
  /-- A mutable count. -/
  | counter
  | int64
  | int32
  | byte
  | boolean
  | float64
  | text
  /-- A text that lives as long as the host. -/
  | staticText
  | unit
  /-- A script value in the host's keeping. -/
  | dynamic
  deriving DecidableEq, Repr, Inhabited

namespace HostType

def all : List HostType :=
  [.vector, .counter, .int64, .int32, .byte, .boolean, .float64, .text, .staticText, .unit, .dynamic]

/-- The short name of a host type. -/
def tag : HostType → String
  | .vector => "vec2"
  | .counter => "counter"
  | .int64 => "i64"
  | .int32 => "i32"
  | .byte => "u8"
  | .boolean => "bool"
  | .float64 => "f64"
  | .text => "string"
  | .staticText => "static"
  | .unit => "unit"
  | .dynamic => "value"

/-- The name the host itself gives to a type. -/
def fullName : HostType → String
  | .vector => "ember_oracle::host::Vec2"
  | .counter => "ember_oracle::host::Counter"
  | .int64 => "i64"
  | .int32 => "i32"
  | .byte => "u8"
  | .boolean => "bool"
  | .float64 => "f64"
  | .text => "alloc::string::String"
  | .staticText => "&str"
  | .unit => "()"
  | .dynamic => "ember::value::Value"

/-- The host type of a tag. -/
def ofTag? (tag : String) : Option HostType := all.find? (·.tag = tag)

end HostType

end ScriptObjects
