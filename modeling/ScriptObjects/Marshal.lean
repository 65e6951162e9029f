import ScriptObjects.Allocation
import ScriptObjects.Host.Behavior

/-!
# Crossing the host boundary

A script value becomes a host object of the type asked for, and a host object a
script value.  Primitive host objects convert directly; an object whose type is
described by a class is wrapped in a new instance of that class; every other host
object stays what it is.
-/

namespace ScriptObjects

set_option autoImplicit false

/-- The text that selective marshaling refuses to hand to the host. -/
def refusedText : String := "reject"

/-- The host object that an accepted value becomes; none where an instance has no host object. -/
def hostForm (type : ValueType) (value : Value) : Exec (Option HostId) := do
  match type, value with
  | _, .host id => return some id
  | .host _, .object id => return ((← get).object id).host
  | _, .null => return some (← Exec.newHost .unit)
  | _, .bool b => return some (← Exec.newHost (.boolean b))
  | .float, .int i => return some (← Exec.newHost (.float64 (Number.ofWord i)))
  | _, .int i => return some (← Exec.newHost (.int64 i))
  | _, .float f => return some (← Exec.newHost (.float64 f))
  | _, .text s => return some (← Exec.newHost (.text s))
  | _, other => return some (← Exec.newHost (.dynamic other))

/-- Hands a value to the host at a type. -/
def toHost (value : Value) (type : ValueType) : Exec HostId := do
  if (← get).marshaling = .selective ∧ value = .text refusedText then
    throw (.unmarshalable refusedText type.name)
  let unsupported := Fault.unmarshalable ((← get).typeName value) type.name
  unless ← Exec.accepts type value do
    throw unsupported
  match ← hostForm type value with
  | some host => return host
  | none => throw unsupported

/-- Gives a level of an instance its host object, and the instance one if it has none. -/
def bindHost (id : InstanceId) (level : Nat) (host : HostId) : Exec Unit := do
  if let some place := (← get).level? id level then
    Exec.change (·.bindReference place.reference host)
  Exec.change (·.adoptHost id host)

/-- The script value of a host object: a new instance of the class that describes its type, or the
object itself. -/
def wrapHost (perform : Perform) (host : HostId) : Exec Value := do
  let world ← get
  match world.classForHost? (world.hosts.get host).type with
  | none => return .host host
  | some id =>
      let created ← newInstance id .wrapper
      bindHost created 0 host
      perform (.construct created .wrapper [])
      return .object created

/-- The counts that selective marshaling answers with a missing variable, and its name. -/
def refusedCount? : HostObject → Option String
  | .int64 404 => some "count"
  | .int64 405 => some "other"
  | _ => none

/-- Takes a host object back at a type. -/
def fromHost (perform : Perform) (type : ValueType) (host : HostId) : Exec Value := do
  let object ← hostObject host
  if (← get).marshaling = .selective then
    if let some name := refusedCount? object then
      throw (.lookup (.notDeclared name))
  let value ← match object.directValue? with
    | some value => pure value
    | none => wrapHost perform host
  match ← Exec.coerce? type value with
  | some value => return value
  | none => throw (.unmarshalable ((← get).typeName value) type.name)

end ScriptObjects
