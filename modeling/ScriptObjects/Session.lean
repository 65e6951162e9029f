import ScriptObjects.Description
import ScriptObjects.Inspection
import ScriptObjects.Machine
import ScriptObjects.Registry

/-!
# Sessions

What a host program can do with an assembly and the things made from it.  Whatever
needs the assembly fails once it is gone; stored variables and function values can
still be looked at then.
-/

namespace ScriptObjects

set_option autoImplicit false

namespace Session

variable {α : Type}

/-! ## Declarations -/

/-- A request to the registry, while the assembly is there. -/
def registering (request : World.Registering Unit) : Exec (Except Refusal Unit) := do
  Exec.requireAssembly
  let (answer, world) := request.run (← get)
  set world
  return answer

/-- Registers a class. -/
def define (spec : ClassSpec) : Exec (Except Refusal Unit) := registering (World.define spec)

/-- Registers a function of the assembly. -/
def defineFunction (spec : FunctionDecl String) : Exec (Except Refusal Unit) :=
  registering (World.defineFunction spec)

/-- Checks all declarations. -/
def validate : Exec (Except Refusal Unit) := registering World.validate

/-- The registered classes, in order of registration. -/
def classes : Exec (List ClassId) := do
  Exec.requireAssembly
  return (← get).registry.order

/-- The registered class of a name. -/
def class? (name : String) : Exec (Option ClassId) := do
  Exec.requireAssembly
  return (← get).findClass? name

/-- The class that describes a host type. -/
def classForHost? (type : HostType) : Exec (Option ClassId) := do
  Exec.requireAssembly
  return (← get).classForHost? type

/-- The function of the assembly with a name. -/
def function? (name : String) : Exec (Option Function) := do
  Exec.requireAssembly
  return (← get).function? name

/-- The registered base of a class. -/
def base? (id : ClassId) : Exec (Option ClassId) := do
  match ((← get).cls id).base with
  | some reference => Exec.resolveRef? reference
  | none => return none

/-- A class as its chain stands; looking at it follows the bases. -/
def describeClass (id : ClassId) : Exec Snapshot := fun world =>
  let world := world.resolveBases (world.ancestors id)
  (.done (world.describeClass id), world)

/-- Whether the base of a class was resolved; none for a class without a base. -/
def isBaseResolved? (id : ClassId) : Exec (Option Bool) := Exec.ask fun world =>
  (world.cls id).base.map fun reference => (world.classRefs.get reference).isResolved

/-- Whether a class named so is a proper ancestor. -/
def doesExtend (id : ClassId) (name : String) : Exec Bool := fun world =>
  (.done (world.doesExtend id name), world.resolveBases (world.visitedByExtend id name))

/-- The meta-functions of a class. -/
def metaTable (id : ClassId) : Exec MetaTable := fun world =>
  (.done (world.metaTable id), world.keepMetaTable id)

/-- Whether a slot of the first type may hold every value of the second. -/
def isTypeCompatible (target source : ValueType) : Exec Bool := do
  Exec.requireAssembly
  let world ← get
  Exec.change (·.resolveBases (world.visitedByCompatible target source))
  return world.isTypeCompatible target source

/-- A new reference to the class of a name. -/
def newClassRef (name : String) (target : Option ClassId) : Exec ClassRefId := fun world =>
  (.done world.classRefs.next, { world with classRefs := world.classRefs.push ⟨name, target⟩ })

/-- Resolves a class reference. -/
def resolveClassRef (reference : ClassRefId) : Exec (Option ClassId) := do
  Exec.requireAssembly
  Exec.resolveRef? reference

/-! ## Instances -/

/-- Creates and constructs an instance of the class of a name. -/
def create (className : String) (options : CreateOptions) (args : List Value) :
    Exec InstanceId := do
  Exec.requireAssembly
  createInstance perform className options args

/-- A new instance of the class of a name, without constructing it. -/
def allocate (className : String) (options : CreateOptions) : Exec InstanceId := do
  Exec.requireAssembly
  match (← get).findClass? className with
  | some id => newInstance id options
  | none => throw (.unknownClass className)

/-- Runs the construction protocol on an instance. -/
def construct (id : InstanceId) (options : CreateOptions) (args : List Value) : Exec Unit := do
  Exec.requireAssembly
  perform (.construct id options args)

/-- The script value of a host object. -/
def wrap (host : HostId) : Exec Value := do
  Exec.requireAssembly
  wrapHost perform host

/-- The level of the class of a name in the chain of an instance. -/
def levelOfName? (id : InstanceId) (className : String) : Exec (Option Nat) :=
  Exec.ask fun world => world.levelOf? id (TypeHash.ofName className)

/-- Ends the life of an instance, and forgets every name it was saved under. -/
def drop (id : InstanceId) : Exec Unit := Exec.change fun world =>
  { world.withObject id fun object => { object with alive := false } with
    bindings := world.bindings.filter fun entry =>
      match entry.2 with
      | .value (.object other) => other ≠ id
      | _ => true }

/-- Ends the life of the assembly. -/
def dropAssembly : Exec Unit := Exec.change fun world => { world with alive := false }

/-! ## Scopes -/

/-- The variables of the assembly visible at a tier. -/
def roots (access : Access) : Exec Scope := do
  Exec.requireAssembly
  return rootScope access

/-- The variables of the assembly at exactly one tier. -/
def rootDeclarations (access : Access) : Exec Scope := do
  Exec.requireAssembly
  return .store (World.rootStore access)

/-- Reads a variable. -/
def read (scope : Scope) (name : String) : Exec Value := perform (.read scope name)

/-- Writes a variable. -/
def assign (scope : Scope) (name : String) (value : Value) : Exec Unit :=
  perform (.assign scope name value)

/-- Whether a variable is declared, and whether it has a value. -/
def status (scope : Scope) (name : String) : Exec (Bool × Bool) := do
  let declared := (← get).isDeclared name scope
  return (declared, ← isAssigned name scope)

/-- The annotation instances of a variable. -/
def annotations (scope : Scope) (name : String) : Exec (List InstanceId) :=
  annotationsOf perform name scope

/-! ## Values and calls -/

/-- The value of an expression outside any body. -/
def eval (expr : Expr) : Exec Value := evaluate perform none expr

/-- The values of several expressions outside any body. -/
def evalAll (exprs : List Expr) : Exec (List Value) := evaluateAll perform none exprs

/-- The context to run on where none is given: the assembly's own, or a new one when that is
gone. -/
def defaultContext : Exec ContextId := do
  if (← get).alive then return World.ownContext else Exec.newContext none

/-- Applies an operator. -/
def dispatch (context : ContextId) (operator : Operator) (operands : List Value) : Exec Value := do
  Exec.requireAssembly
  operate perform context operator operands

/-- Calls a function value.  Whether a value is one is settled by `requireFunction`, before its
arguments are looked at. -/
def call (context : ContextId) (callable : CallableId) (args : List Value) : Exec Value :=
  perform (.call callable args context)

/-- Calls a meta-function of an instance. -/
def callHook (context : ContextId) (id : InstanceId) (key : MetaKey) (args : List Value) :
    Exec (Option Value) := do
  Exec.requireAssembly
  hook perform context id key args

/-- Hands a value to the host. -/
def marshal (value : Value) (type : ValueType) : Exec HostId := do
  Exec.requireAssembly
  toHost value type

/-- Takes a host object back. -/
def unmarshal (host : HostId) (type : ValueType) : Exec Value := do
  Exec.requireAssembly
  fromHost perform type host

/-- The host object of a level of an instance. -/
def resolveLevel (id : InstanceId) (level : Nat) : Exec HostId := levelHost ⟨id, level⟩

/-! ## Frames held by the session -/

/-- Pushes a frame and holds it under a name; a frame held there before is let go. -/
def holdFrame (name : String) (context : ContextId) (frame : Frame) : Exec Nat := do
  let world ← get
  match (world.context context).push? frame with
  | .error limit => throw (.stackOverflow limit)
  | .ok deeper =>
      let held : HeldFrame := ⟨context, deeper.depth⟩
      Exec.change fun world =>
        let world := world.withContext context fun _ => deeper
        let world := match world.heldFrames.lookup name with
          | some old => world.withContext old.context (·.truncate (old.depth - 1))
          | none => world
        { world with heldFrames := (name, held) :: world.heldFrames.filter (·.1 ≠ name) }
      return deeper.depth

/-- Lets a held frame go, and everything above it; whether there was one. -/
def releaseFrame (name : String) : Exec Bool := do
  match (← get).heldFrames.lookup name with
  | none => return false
  | some held =>
      Exec.change fun world =>
        { world.withContext held.context (·.truncate (held.depth - 1)) with
          heldFrames := world.heldFrames.filter (·.1 ≠ name) }
      return true

/-! ## The log -/

/-- Empties the log and gives what was recorded, in order. -/
def takeLog (world : World) : List Snapshot × World :=
  (world.log.reverse, { world with log := [] })

end Session

end ScriptObjects
