import ScriptObjects.Host.HostType
import ScriptObjects.Value

/-!
# Declared types

The type a variable, parameter or result is declared with.  Whether a type accepts
a value may depend on the classes and host objects of the moment and is decided
where those are known; what depends on the type alone stands here.
-/

namespace ScriptObjects

set_option autoImplicit false

/-- The declared type of a variable, parameter or result. -/
inductive ValueType where
  /-- Accepts every value. -/
  | any
  | null
  | bool
  | int
  /-- Accepts integers too, and widens them. -/
  | float
  | text
  | table
  | function
  /-- An instance of the class or of one that extends it, or null. -/
  | object (className : String)
  /-- A host object of the type, or null. -/
  | host (type : HostType)
  deriving DecidableEq, Repr

instance : Inhabited ValueType := ⟨.any⟩

namespace ValueType

def name : ValueType → String
  | .any => "any"
  | .null => "null"
  | .bool => "bool"
  | .int => "int"
  | .float => "float"
  | .text => "string"
  | .table => "table"
  | .function => "function"
  | .object className => className
  | .host type => "native<" ++ type.fullName ++ ">"

/-- Whether the values of a type are handles; such types accept null. -/
def isReference : ValueType → Bool
  | .table | .function | .object _ | .host _ => true
  | .any | .null | .bool | .int | .float | .text => false

/-- The form in which a slot of a type keeps an accepted value. -/
def widen : ValueType → Value → Value
  | .float, .int i => .float (Number.ofWord i)
  | _, value => value

end ValueType

end ScriptObjects
