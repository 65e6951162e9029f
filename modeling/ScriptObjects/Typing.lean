import ScriptObjects.Hierarchy

/-!
# Values and types

Whether a type accepts a value at this moment, and whether a slot of one type may
take values of another.  Class types ask the hierarchy, and host types the host
object that an instance carries.
-/

namespace ScriptObjects

set_option autoImplicit false

namespace World

/-- Whether a slot of a type may hold a value. -/
def accepts (world : World) : ValueType → Value → Bool
  | .any, _ => true
  | .null, .null => true
  | .bool, .bool _ => true
  | .int, .int _ => true
  | .float, .int _ | .float, .float _ => true
  | .text, .text _ => true
  | .table, .table _ => true
  | .function, .function _ => true
  | type, .null => type.isReference
  | .object name, .object id =>
      (world.classOf id).name = name || world.doesExtend (world.object id).cls name
  | .host type, .host id => (world.hosts.get id).type = type
  | .host type, .object id =>
      match (world.object id).host with
      | some host => (world.hosts.get host).type = type
      | none => false
  | _, _ => false

/-- The classes visited in order to decide whether a type accepts a value. -/
def visitedByAccepts (world : World) : ValueType → Value → List ClassId
  | .object name, .object id =>
      if (world.classOf id).name = name then []
      else world.visitedByExtend (world.object id).cls name
  | _, _ => []

/-- Whether a slot of the first type may hold every value of the second. -/
def isTypeCompatible (world : World) (target source : ValueType) : Bool :=
  match target, source with
  | .any, _ => true
  | .float, .int => true
  | .object target, .object source =>
      target = source ||
        match world.findClass? source with
        | some id => world.doesExtend id target
        | none => false
  | .host host, .object source =>
      match world.findClass? source with
      | some id => (world.cls id).described = some host
      | none => false
  | target, .null => target = .null || target.isReference
  | target, source => target = source

/-- The classes visited in order to decide compatibility. -/
def visitedByCompatible (world : World) : ValueType → ValueType → List ClassId
  | .object target, .object source =>
      if target = source then []
      else match world.findClass? source with
        | some id => world.visitedByExtend id target
        | none => []
  | _, _ => []

end World

end ScriptObjects
