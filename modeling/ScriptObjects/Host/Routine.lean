import ScriptObjects.ValueType

/-!
# Host routines

The accessors, methods and constructors the host offers.  What each of them does
to a host object is said where host objects are reachable; here are their names
and the shapes in which declarations use them.
-/

namespace ScriptObjects

set_option autoImplicit false

/-- A pair of a getter and perhaps a setter on a host object. -/
inductive Accessor where
  | vectorX
  | vectorY
  | counterCount
  /-- The count cut to 32 bits. -/
  | counterSmall
  /-- Raises an exception on every use. -/
  | fail
  /-- The host object itself. -/
  | self
  | unit
  | staticText
  | byte
  /-- A new host-held list. -/
  | list
  deriving DecidableEq, Repr, Inhabited

namespace Accessor

def all : List Accessor :=
  [.vectorX, .vectorY, .counterCount, .counterSmall, .fail, .self, .unit, .staticText, .byte, .list]

def name : Accessor → String
  | .vectorX => "vec2.x"
  | .vectorY => "vec2.y"
  | .counterCount => "counter.count"
  | .counterSmall => "counter.small"
  | .fail => "fail"
  | .self => "self"
  | .unit => "unit"
  | .staticText => "static"
  | .byte => "byte"
  | .list => "list"

def ofName? (name : String) : Option Accessor := all.find? (·.name = name)

/-- Whether the accessor has a setter. -/
def isWritable : Accessor → Bool
  | .vectorX | .counterCount | .fail => true
  | _ => false

end Accessor

/-- What a host method does. -/
inductive MethodRoutine where
  /-- The squared length of a vector. -/
  | vectorNorm
  /-- Multiplies both coordinates of a vector. -/
  | vectorScale
  /-- Adds to a counter and gives the new count. -/
  | counterAdd
  /-- The first argument. -/
  | echo
  /-- The receiver. -/
  | self
  /-- The tags of the arguments. -/
  | argumentTypes
  | fail
  | int32
  | staticText
  | byte
  | newVector
  deriving DecidableEq, Repr, Inhabited

namespace MethodRoutine

def all : List MethodRoutine :=
  [.vectorNorm, .vectorScale, .counterAdd, .echo, .self, .argumentTypes, .fail, .int32,
   .staticText, .byte, .newVector]

def name : MethodRoutine → String
  | .vectorNorm => "vec2.norm2"
  | .vectorScale => "vec2.scale"
  | .counterAdd => "counter.add"
  | .echo => "echo"
  | .self => "self"
  | .argumentTypes => "argtypes"
  | .fail => "fail"
  | .int32 => "int32"
  | .staticText => "static"
  | .byte => "byte"
  | .newVector => "newvec2"

def ofName? (name : String) : Option MethodRoutine := all.find? (·.name = name)

end MethodRoutine

/-- What a host constructor makes. -/
inductive ConstructorRoutine where
  | vector
  | counter
  | byte
  | fail
  deriving DecidableEq, Repr, Inhabited

namespace ConstructorRoutine

def all : List ConstructorRoutine := [.vector, .counter, .byte, .fail]

def name : ConstructorRoutine → String
  | .vector => "vec2"
  | .counter => "counter"
  | .byte => "byte"
  | .fail => "fail"

def ofName? (name : String) : Option ConstructorRoutine := all.find? (·.name = name)

end ConstructorRoutine

/-- A host method with the types of its parameters and of its result. -/
structure HostMethod where
  params : List ValueType
  returns : ValueType
  routine : MethodRoutine
  deriving DecidableEq, Inhabited

/-- A host constructor with the types of its parameters. -/
structure HostConstructor where
  params : List ValueType
  routine : ConstructorRoutine
  deriving DecidableEq, Inhabited

end ScriptObjects
