import ScriptObjects.Annotations
import ScriptObjects.Marshal
import ScriptObjects.Scope.Declare

/-!
# Reading and writing variables

A slot with annotations routes reads through their read hooks and writes through
their write hooks.  A write checks and widens the value that comes out of the hooks.
A slot backed by a host object reads and writes it across the host boundary.

A store that is at home on a level or in the roots turns a function into a slot when
its name is first looked up there: the function is found through the hierarchy from
the level's class on, among the functions of the store's own tier, and the slot
holds it, bound to the level of the class that declares it.  The annotations of the
function are created then; when that fails the slot is taken away again.

A composite goes on to its next source exactly when a source reports that the name
looked up is not declared.
-/

namespace ScriptObjects

set_option autoImplicit false

/-- Fails where a store no longer reaches its assembly. -/
def requireStoreAssembly (id : StoreId) : Exec Unit := do
  match ((← get).store id).home with
  | .free false => throw .assemblyDropped
  | _ => Exec.requireAssembly

/-! ## Slots -/

/-- Reads the slot of a name in a store. -/
def readSlot (perform : Perform) (id : StoreId) (name : String) : Exec Value := do
  match ((← get).store id).slot? name with
  | none => throw (.lookup (.notDeclared name))
  | some slot => do
      let value ← match slot.content with
        | .script (some value) => pure value
        | .script none => throw (.lookup (.notAssigned name))
        | .host accessor reference => do
            let host ← resolveReference reference
            let raw ← accessor.read host
            requireStoreAssembly id
            fromHost perform slot.type raw
      if slot.annotations.isEmpty then return value
      requireStoreAssembly id
      intercept perform .onRead name value slot.annotations

/-- Writes the slot of a name in a store. -/
def assignSlot (perform : Perform) (id : StoreId) (name : String) (value : Value) :
    Exec Unit := do
  match ((← get).store id).slot? name with
  | none => throw (.lookup (.notDeclared name))
  | some slot => do
      if slot.immutable then
        throw (.lookup (.immutableFunction name))
      let value ←
        if slot.annotations.isEmpty then pure value
        else do
          requireStoreAssembly id
          intercept perform .onWrite name value slot.annotations
      match ← Exec.coerce? slot.type value with
      | none => throw (.lookup (.typeMismatch name slot.type.name (← typeNameOf value)))
      | some stored =>
          match slot.content with
          | .script _ => Exec.change (·.withStore id (·.modify name (·.write stored)))
          | .host accessor reference => do
              requireStoreAssembly id
              let host ← resolveReference reference
              accessor.write host (← toHost stored slot.type)

/-- Attaches annotation instances to the slot of a name, in place of those it had. -/
def annotateSlot (id : StoreId) (name : String) (annotations : List InstanceId) : Exec Unit := do
  unless ((← get).store id).declares name do
    throw (.lookup (.notDeclared name))
  Exec.change (·.withStore id (·.modify name fun slot => { slot with annotations := annotations }))

/-! ## Materialization -/

/-- Puts a function into a store as an immutable slot, then creates its annotations. -/
def installFunction (perform : Perform) (id : StoreId) (function : Function)
    (receiver : Option Receiver) : Exec Unit := do
  let callable ← Exec.newCallable (.ofFunction function receiver)
  insertSlot id function.name (.function callable)
  unless function.annotations.isEmpty do
    let context ← Exec.newConfiguredContext
    let attached : Exec Unit := do
      let created ←
        createAnnotations perform function.label receiver context function.annotations
      annotateSlot id function.name created
    attached.recover fun fault => do
      Exec.change (·.withStore id (·.erase function.name))
      throw fault

/-- Turns the function that a name means in a store into a slot; false when there is none. -/
def materialize (perform : Perform) (id : StoreId) (name : String) : Exec Bool := do
  match ((← get).store id).home with
  | .free _ => return false
  | .level owner level cls tier => do
      Exec.requireAssembly
      match ← Exec.findFunction? cls name (tier = .localOnly) fun f => f.access = tier with
      | none => return false
      | some function =>
          let world ← get
          unless (world.object owner).alive do
            throw (.instanceDropped function.label)
          let bound := (function.owner.bind fun o => world.levelOf? owner o.hash).getD level
          installFunction perform id function (some ⟨owner, bound⟩)
          return true
  | .root tier => do
      Exec.requireAssembly
      match ((← get).function? name).filter fun f => f.access = tier with
      | none => return false
      | some function =>
          installFunction perform id function none
          return true

/-! ## Stores -/

/-- Whether a run succeeded, failed for the want of a name, or failed otherwise. -/
def orElseMissing {α : Type} (name : String) (run : Exec α) (next : Exec α) : Exec α :=
  run.recover fun fault => if fault.isMiss name then next else throw fault

/-- Reads a name in a store, after materializing it where it has to be. -/
def readStore (perform : Perform) (id : StoreId) (name : String) : Exec Value :=
  orElseMissing name (readSlot perform id name) do
    if ← materialize perform id name then readSlot perform id name
    else throw (.lookup (.notDeclared name))

/-- Writes a name in a store; a function is materialized and refuses the write. -/
def assignStore (perform : Perform) (id : StoreId) (name : String) (value : Value) :
    Exec Unit :=
  orElseMissing name (assignSlot perform id name value) do
    if ← materialize perform id name then throw (.lookup (.immutableFunction name))
    else throw (.lookup (.notDeclared name))

/-- Whether the slot of a name has a value; a hosted slot has one when its reference resolves. -/
def isSlotAssigned (id : StoreId) (name : String) : Exec Bool := do
  match ((← get).store id).slot? name with
  | none => return false
  | some slot =>
      match slot.content with
      | .script value => return value.isSome
      | .host _ reference =>
          match ← Exec.attempt (resolveReference reference) with
          | .ok _ => return true
          | .error _ => return false

/-- The annotation instances of a name in a store, after materializing it where it has to be. -/
def storeAnnotations (perform : Perform) (id : StoreId) (name : String) :
    Exec (List InstanceId) := do
  unless ((← get).store id).declares name do
    match ← Exec.attempt (materialize perform id name) with
    | .ok true => pure ()
    | .ok false => throw (.lookup (.notDeclared name))
    | .error fault => throw (.lookup ⟨name, fault.state, some fault.message⟩)
  match ((← get).store id).slot? name with
  | some slot => return slot.annotations
  | none => throw (.lookup (.notDeclared name))

/-! ## Scopes -/

mutual

/-- Reads a name through a scope. -/
def readScope (perform : Perform) (name : String) : Scope → Exec Value
  | .store id => readStore perform id name
  | .composite sources => readSources perform name sources

/-- Reads a name through the first of several scopes that knows it. -/
def readSources (perform : Perform) (name : String) : List Scope → Exec Value
  | [] => throw (.lookup (.notDeclared name))
  | source :: rest =>
      orElseMissing name (readScope perform name source) (readSources perform name rest)

end

mutual

/-- Writes a name through a scope. -/
def assignScope (perform : Perform) (name : String) (value : Value) : Scope → Exec Unit
  | .store id => assignStore perform id name value
  | .composite sources => assignSources perform name value sources

/-- Writes a name through the first of several scopes that knows it. -/
def assignSources (perform : Perform) (name : String) (value : Value) : List Scope → Exec Unit
  | [] => throw (.lookup (.notDeclared name))
  | source :: rest =>
      orElseMissing name (assignScope perform name value source)
        (assignSources perform name value rest)

end

mutual

/-- Whether a name has a value in a scope. -/
def isAssigned (name : String) : Scope → Exec Bool
  | .store id => isSlotAssigned id name
  | .composite sources => isAssignedInFirst name sources

/-- Whether a name has a value in the first of several scopes that declares it. -/
def isAssignedInFirst (name : String) : List Scope → Exec Bool
  | [] => return false
  | source :: rest => do
      if (← get).isDeclared name source then isAssigned name source
      else isAssignedInFirst name rest

end

/-- Continues with another run when a fault says that some name is not declared. -/
def orElseUndeclared {α : Type} (run : Exec α) (next : Exec α) : Exec α :=
  run.recover fun fault =>
    match fault with
    | .lookup cause => if cause.state = .notDeclared then next else throw fault
    | _ => throw fault

mutual

/-- The annotation instances of a name in a scope. -/
def annotationsOf (perform : Perform) (name : String) : Scope → Exec (List InstanceId)
  | .store id => storeAnnotations perform id name
  | .composite sources => annotationsInSources perform name sources

/-- The annotation instances of a name in the first of several scopes that knows it. -/
def annotationsInSources (perform : Perform) (name : String) :
    List Scope → Exec (List InstanceId)
  | [] => throw (.lookup (.notDeclared name))
  | source :: rest =>
      orElseUndeclared (annotationsOf perform name source)
        (annotationsInSources perform name rest)

end

mutual

/-- Attaches annotation instances to a name in a scope. -/
def annotate (name : String) (annotations : List InstanceId) : Scope → Exec Unit
  | .store id => annotateSlot id name annotations
  | .composite sources => annotateSources name annotations sources

/-- Attaches annotation instances to a name in the first of several scopes that declares it. -/
def annotateSources (name : String) (annotations : List InstanceId) : List Scope → Exec Unit
  | [] => throw (.lookup (.notDeclared name))
  | source :: rest =>
      orElseUndeclared (annotate name annotations source) (annotateSources name annotations rest)

end

end ScriptObjects
