import ScriptObjects.Host.Routine
import ScriptObjects.Steps

/-!
# What host routines do

Getters, setters, methods and constructors of the host, as runs.  A routine for one
type of host objects refuses any other receiver; a setter for one type of values
refuses any other value, and looks at the value before the receiver.  Methods and
constructors check the number of their arguments before anything else.
-/

namespace ScriptObjects

set_option autoImplicit false

/-- The host object a handle names. -/
def hostObject (id : HostId) : Exec HostObject := Exec.ask fun world => world.hosts.get id

/-- The fault of a routine whose receiver is of another type. -/
def wrongReceiver {α : Type} (expected : HostType) : Exec α :=
  throw (.receiverType expected.fullName)

/-- The fault of a setter whose value is of another type. -/
def wrongHostValue {α : Type} (expected actual : HostType) : Exec α :=
  throw (.hostException ("expected " ++ expected.fullName ++ ", got " ++ actual.fullName))

namespace Accessor

/-- What the getter gives. -/
def read (accessor : Accessor) (host : HostId) : Exec HostId := do
  match accessor, ← hostObject host with
  | .vectorX, .vector x _ => Exec.newHost (.float64 x)
  | .vectorY, .vector _ y => Exec.newHost (.float64 y)
  | .vectorX, _ | .vectorY, _ => wrongReceiver .vector
  | .counterCount, .counter n => Exec.newHost (.int64 n)
  | .counterSmall, .counter n => Exec.newHost (.int32 n.toInt32)
  | .counterCount, _ | .counterSmall, _ => wrongReceiver .counter
  | .fail, _ => throw (.hostException "getter failed")
  | .self, _ => return host
  | .unit, _ => Exec.newHost .unit
  | .staticText, _ => Exec.newHost .staticText
  | .byte, _ => Exec.newHost (.byte 5)
  | .list, _ => do Exec.newHost (.dynamic (← Exec.newList [.int 1]))

/-- What the setter does. -/
def write (accessor : Accessor) (host value : HostId) : Exec Unit := do
  match accessor with
  | .vectorX =>
      match ← hostObject value, ← hostObject host with
      | .float64 x, .vector _ y => Exec.change (·.withHost host (.vector x y))
      | .float64 _, _ => wrongReceiver .vector
      | other, _ => wrongHostValue .float64 other.type
  | .counterCount =>
      match ← hostObject value, ← hostObject host with
      | .int64 n, .counter _ => Exec.change (·.withHost host (.counter n))
      | .int64 _, _ => wrongReceiver .counter
      | other, _ => wrongHostValue .int64 other.type
  | .fail => throw (.hostException "setter failed")
  | _ => throw (.hostException "field is read-only")

end Accessor

/-- The float an argument holds, zero when it is missing or of another type. -/
def floatArgument (args : List HostObject) (position : Nat) : Float :=
  match args[position]? with
  | some (.float64 x) => x
  | _ => 0

/-- The integer an argument holds, zero when it is missing or of another type. -/
def intArgument (args : List HostObject) (position : Nat) : Int64 :=
  match args[position]? with
  | some (.int64 n) => n
  | _ => 0

/-- The host objects that some handles name. -/
def hostObjects (ids : List HostId) : Exec (List HostObject) :=
  Exec.ask fun world => ids.map world.hosts.get

/-- Fails unless as many arguments are given as there are parameters. -/
def checkArity (expected actual : Nat) : Exec Unit := do
  unless expected = actual do
    throw (.argumentCount expected actual)

/-- What a method gives once its arguments were counted. -/
def MethodRoutine.run (routine : MethodRoutine) (receiver : HostId) (args : List HostId) :
    Exec HostId := do
  match routine, ← hostObject receiver with
  | .vectorNorm, .vector x y => Exec.newHost (.float64 (x * x + y * y))
  | .vectorScale, .vector x y => do
      let factor := floatArgument (← hostObjects args) 0
      Exec.change (·.withHost receiver (.vector (x * factor) (y * factor)))
      Exec.newHost .unit
  | .vectorNorm, _ | .vectorScale, _ => wrongReceiver .vector
  | .counterAdd, .counter n => do
      let total := n + intArgument (← hostObjects args) 0
      Exec.change (·.withHost receiver (.counter total))
      Exec.newHost (.int64 total)
  | .counterAdd, _ => wrongReceiver .counter
  | .echo, _ =>
      match args with
      | first :: _ => return first
      | [] => Exec.newHost .unit
  | .self, _ => return receiver
  | .argumentTypes, _ => do
      let tags := (← hostObjects args).map fun object => object.type.tag
      Exec.newHost (.text (String.intercalate "," tags))
  | .fail, _ => throw (.hostException "native failure")
  | .int32, _ => Exec.newHost (.int32 7)
  | .staticText, _ => Exec.newHost .staticText
  | .byte, _ => Exec.newHost (.byte 5)
  | .newVector, _ => Exec.newHost (.vector 1 2)

/-- Calls a host method. -/
def HostMethod.invoke (method : HostMethod) (receiver : HostId) (args : List HostId) :
    Exec HostId := do
  checkArity method.params.length args.length
  method.routine.run receiver args

/-- What a constructor makes once its arguments were counted. -/
def ConstructorRoutine.run (routine : ConstructorRoutine) (args : List HostId) : Exec HostId := do
  let objects ← hostObjects args
  match routine with
  | .vector => Exec.newHost (.vector (floatArgument objects 0) (floatArgument objects 1))
  | .counter => Exec.newHost (.counter (intArgument objects 0))
  | .byte => Exec.newHost (.byte 5)
  | .fail => throw (.hostException "constructor failed")

/-- Calls a host constructor. -/
def HostConstructor.invoke (constructor : HostConstructor) (args : List HostId) : Exec HostId := do
  checkArity constructor.params.length args.length
  constructor.routine.run args

/-- The host object a reference resolves to.  An unbound reference falls back to the host object
of its instance, if that is alive and the object is of the described type, and stays bound to it. -/
def resolveReference (id : ReferenceId) : Exec HostId := do
  let world ← get
  let reference := world.references.get id
  match reference.bound with
  | some host => return host
  | none =>
      let fallback := reference.owner.bind fun owner =>
        let object := world.object owner
        if object.alive then object.host else none
      match fallback with
      | some host =>
          if reference.described.all (· = (world.hosts.get host).type) then
            Exec.change (·.bindReference id host)
            return host
          else throw (.unresolvedReference reference.className)
      | none => throw (.unresolvedReference reference.className)

end ScriptObjects
