import ScriptObjects.Exec
import ScriptObjects.Typing

/-!
# Single steps of a run

The smallest runs: one allocation, one question to the hierarchy with the walk it
takes, one frame pushed for the duration of another run.  Everything a larger run
does to the state goes through one of these or through a change named in the state
itself.
-/

namespace ScriptObjects

set_option autoImplicit false

namespace Exec

variable {α : Type}

/-- Fails once the assembly is gone. -/
def requireAssembly : Exec Unit := do
  unless (← get).alive do
    throw .assemblyDropped

/-- Adds a table. -/
def newTable (table : Table) : Exec TableId := fun world =>
  (.done world.tables.next, { world with tables := world.tables.push table })

/-- A new table with the items under the keys 1 to n. -/
def newList (items : List Value) : Exec Value := do
  return .table (← newTable (.ofList items))

/-- Adds a host object. -/
def newHost (object : HostObject) : Exec HostId := fun world =>
  (.done world.hosts.next, { world with hosts := world.hosts.push object })

/-- Adds a function value. -/
def newCallable (callable : Callable) : Exec CallableId := fun world =>
  (.done world.callables.next, { world with callables := world.callables.push callable })

/-- Adds a store. -/
def newStore (home : StoreHome) : Exec StoreId := fun world =>
  (.done world.stores.next, { world with stores := world.stores.push (.empty home) })

/-- Adds a host reference. -/
def newReference (reference : HostReference) : Exec ReferenceId := fun world =>
  (.done world.references.next, { world with references := world.references.push reference })

/-- Adds a context without frames. -/
def newContext (limit : Option Nat) : Exec ContextId := fun world =>
  (.done world.contexts.next, { world with contexts := world.contexts.push (.fresh limit) })

/-- A new context under the settings of the assembly. -/
def newConfiguredContext : Exec ContextId := do
  newContext (← get).config.maxCallDepth

/-- Runs with one more frame on a context, and takes it off however the run ends. -/
def withFrame (context : ContextId) (frame : Frame) (run : Exec α) : Exec α := do
  let before := (← get).context context
  match before.push? frame with
  | .error limit => throw (.stackOverflow limit)
  | .ok deeper =>
      change (·.withContext context fun _ => deeper)
      thenAlways run (·.withContext context (·.truncate before.depth))

/-- Whether a type accepts a value; the hierarchy is walked for class types. -/
def accepts (type : ValueType) (value : Value) : Exec Bool := fun world =>
  (.done (world.accepts type value), world.resolveBases (world.visitedByAccepts type value))

/-- The stored form of a value, if the type accepts it. -/
def coerce? (type : ValueType) (value : Value) : Exec (Option Value) := do
  return if ← accepts type value then some (type.widen value) else none

/-- The meta-function of a class under a key. -/
def metaLink? (id : ClassId) (key : MetaKey) : Exec (Option MetaLink) := fun world =>
  (.done ((world.metaTable id).get? key), world.keepMetaTable id)

/-- The nearest function of a name along the chain of a class, or on the class alone. -/
def findFunction? (id : ClassId) (name : String) (declaredOnly : Bool)
    (accepts : Function → Bool) : Exec (Option Function) := fun world =>
  let question := ClassDef.acceptedFunction? name accepts
  if declaredOnly then (.done (question (world.cls id)), world)
  else (.done (world.nearest? id question), world.resolveBases (world.visitedByNearest id question))

/-- The nearest field of a name along the chain of a class, or on the class alone. -/
def findField? (id : ClassId) (name : String) (declaredOnly : Bool)
    (accepts : Field → Bool) : Exec (Option Field) := fun world =>
  let question := ClassDef.acceptedField? name accepts
  if declaredOnly then (.done (question (world.cls id)), world)
  else (.done (world.nearest? id question), world.resolveBases (world.visitedByNearest id question))

/-- A class followed by its bases. -/
def ancestors (id : ClassId) : Exec (List ClassId) := fun world =>
  let chain := world.ancestors id
  (.done chain, world.resolveBases chain)

/-- The class a reference stands for. -/
def resolveRef? (reference : ClassRefId) : Exec (Option ClassId) := fun world =>
  (.done (world.target? reference), world.touchRef reference)

end Exec

end ScriptObjects
