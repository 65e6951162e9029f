import ScriptObjects.Context
import ScriptObjects.Host.Object
import ScriptObjects.Instance
import ScriptObjects.Table

/-!
# The state of a session

Everything that exists at one moment: the registered classes and functions of the
assembly, the heaps of everything with an identity, the values saved by the
session, and the log.  The changes a run can make to this state are the small
functions of this module; nothing else writes to it.
-/

namespace ScriptObjects

set_option autoImplicit false

/-- The settings of an assembly. -/
structure Config where
  maxCallDepth : Option Nat
  checkReturnTypes : Bool
  traceFrames : Bool
  deriving DecidableEq, Repr

instance : Inhabited Config := ⟨⟨none, true, false⟩⟩

/-- How values cross the host boundary. -/
inductive MarshalRules where
  | standard
  /-- As standard, but some values are refused on purpose. -/
  | selective
  deriving DecidableEq, Repr, Inhabited

/-- A value as it was at the moment it was shown. -/
inductive Snapshot where
  | null
  | bool (value : Bool)
  | int (value : Int)
  | float (value : Float)
  | text (value : String)
  | table (entries : List (Snapshot × Snapshot))
  /-- A table too deep inside others to be shown. -/
  | elided
  | function (label kind : String) (level : Option Nat)
  | object (className : String) (number : Nat)
  | host (tag : String) (payload : Snapshot)
  | list (items : List Snapshot)
  /-- Named parts. -/
  | record (fields : List (String × Snapshot))

instance : Inhabited Snapshot := ⟨.null⟩

/-- What a session may save under a name. -/
inductive Binding where
  | value (value : Value)
  | scope (scope : Scope)
  | context (context : ContextId)
  | classRef (reference : ClassRefId)
  | reference (reference : ReferenceId)

instance : Inhabited Binding := ⟨.value .null⟩

/-- A frame that the session itself holds on a context, and the depth at which it lies. -/
structure HeldFrame where
  context : ContextId
  depth : Nat
  deriving DecidableEq, Inhabited

/-- The entries of a map after one is inserted, in place of an entry of the same key. -/
def insertEntry {κ α : Type} [DecidableEq κ] (key : κ) (value : α) (entries : List (κ × α)) :
    List (κ × α) :=
  (key, value) :: entries.filter (·.1 ≠ key)

/-- The tables in which an assembly finds its classes. -/
structure Registry where
  /-- The classes by their names. -/
  names : List (String × ClassId)
  /-- The classes in the order in which they were registered. -/
  order : List ClassId
  /-- The classes by the host types that they describe. -/
  hosts : List (HostType × ClassId)
  deriving Inhabited

namespace Registry

/-- The tables before anything is registered. -/
def empty : Registry := ⟨[], [], []⟩

/-- Enters a class under its name. -/
def enterName (registry : Registry) (name : String) (id : ClassId) : Registry :=
  { registry with names := insertEntry name id registry.names }

/-- Enters a class as the latest one. -/
def enterLast (registry : Registry) (id : ClassId) : Registry :=
  { registry with order := registry.order ++ [id] }

/-- Enters a class under the host type that it describes, if it describes one. -/
def enterHost (registry : Registry) (described : Option HostType) (id : ClassId) : Registry :=
  match described with
  | some host => { registry with hosts := insertEntry host id registry.hosts }
  | none => registry

end Registry

/-- Everything that exists at one moment. -/
structure World where
  config : Config
  marshaling : MarshalRules
  /-- Whether the assembly is still there. -/
  alive : Bool
  /-- The definitions of classes; they are found through the tables of the registry. -/
  classes : Heap .definition ClassDef
  registry : Registry
  classRefs : Heap .classRef ClassRef
  /-- The functions of the assembly, oldest first. -/
  functions : List Function
  instances : Heap .object Instance
  stores : Heap .store Store
  tables : Heap .table Table
  callables : Heap .callable Callable
  hosts : Heap .host HostObject
  references : Heap .reference HostReference
  contexts : Heap .context Context
  bindings : List (String × Binding)
  /-- The frames held by the session, by name. -/
  heldFrames : List (String × HeldFrame)
  /-- What was logged, latest first. -/
  log : List Snapshot
  deriving Inhabited

namespace World

/-- The store of the roots at one tier. -/
def rootStore : Access → StoreId
  | .global => ⟨0⟩
  | .internal => ⟨1⟩
  | .localOnly => ⟨2⟩

/-- The assembly's own context. -/
def ownContext : ContextId := ⟨0⟩

/-- The state at the start of a session. -/
def initial (config : Config) (marshaling : MarshalRules) : World where
  config := config
  marshaling := marshaling
  alive := true
  classes := .empty
  registry := .empty
  classRefs := .empty
  functions := []
  instances := .empty
  stores := ⟨#[.empty (.root .global), .empty (.root .internal), .empty (.root .localOnly)]⟩
  tables := .empty
  callables := .empty
  hosts := .empty
  references := .empty
  contexts := ⟨#[.fresh config.maxCallDepth]⟩
  bindings := []
  heldFrames := []
  log := []

/-! ## Reading -/

def cls (world : World) (id : ClassId) : ClassDef := world.classes.get id

def object (world : World) (id : InstanceId) : Instance := world.instances.get id

def store (world : World) (id : StoreId) : Store := world.stores.get id

def context (world : World) (id : ContextId) : Context := world.contexts.get id

/-- The number an instance is known by, counted from one. -/
def instanceNumber (id : InstanceId) : Nat := id.index + 1

/-- The most derived class of an instance. -/
def classOf (world : World) (id : InstanceId) : ClassDef := world.cls (world.object id).cls

/-- The registered class of a name. -/
def findClass? (world : World) (name : String) : Option ClassId :=
  world.registry.names.lookup name

/-- The registered class that describes a host type. -/
def classForHost? (world : World) (type : HostType) : Option ClassId :=
  world.registry.hosts.lookup type

/-- The function of the assembly with a name. -/
def function? (world : World) (name : String) : Option Function :=
  world.functions.find? (·.name = name)

/-- The level of an instance at which the class with an identity sits. -/
def levelOf? (world : World) (id : InstanceId) (hash : TypeHash) : Option Nat :=
  (world.object id).levels.findIdx? fun level => (world.cls level.cls).hash = hash

/-- The level of an instance at a place of its chain. -/
def level? (world : World) (id : InstanceId) (level : Nat) : Option Level :=
  (world.object id).levels[level]?

/-- The name of the type a value has at this moment. -/
def typeName (world : World) : Value → String
  | .null => "null"
  | .bool _ => "bool"
  | .int _ => "int"
  | .float _ => "float"
  | .text _ => "string"
  | .table _ => "table"
  | .function _ => "function"
  | .object id => (world.classOf id).name
  | .host id => "native<" ++ (world.hosts.get id).type.fullName ++ ">"

/-! ## Changing -/

def withTable (world : World) (id : TableId) (change : Table → Table) : World :=
  { world with tables := world.tables.modify id change }

def withHost (world : World) (id : HostId) (object : HostObject) : World :=
  { world with hosts := world.hosts.modify id fun _ => object }

def withStore (world : World) (id : StoreId) (change : Store → Store) : World :=
  { world with stores := world.stores.modify id change }

def withContext (world : World) (id : ContextId) (change : Context → Context) : World :=
  { world with contexts := world.contexts.modify id change }

def withObject (world : World) (id : InstanceId) (change : Instance → Instance) : World :=
  { world with instances := world.instances.modify id change }

def withClass (world : World) (id : ClassId) (change : ClassDef → ClassDef) : World :=
  { world with classes := world.classes.modify id change }

/-- Binds a host reference for good. -/
def bindReference (world : World) (id : ReferenceId) (host : HostId) : World :=
  { world with references := world.references.modify id fun r => { r with bound := some host } }

/-- Remembers the class a reference was resolved to. -/
def resolveRef (world : World) (id : ClassRefId) (target : ClassId) : World :=
  { world with classRefs := world.classRefs.modify id fun r => { r with target := some target } }

/-- Gives the instance a host object, unless it has one. -/
def adoptHost (world : World) (id : InstanceId) (host : HostId) : World :=
  world.withObject id fun object =>
    { object with host := some (object.host.getD host) }

/-- Saves something under a session name, in place of what was saved there before. -/
def bind (world : World) (name : String) (binding : Binding) : World :=
  { world with bindings := (name, binding) :: world.bindings.filter (·.1 ≠ name) }

/-- What is saved under a session name. -/
def binding? (world : World) (name : String) : Option Binding := world.bindings.lookup name

def record (world : World) (snapshot : Snapshot) : World :=
  { world with log := snapshot :: world.log }

/-! ## Reading after a change -/

theorem store_withStore (world : World) (id other : StoreId) (change : Store → Store) :
    (world.withStore id change).store other =
      if other = id ∧ id.index < world.stores.size then change (world.store id)
      else world.store other :=
  world.stores.get_modify id other change

theorem store_withStore_ne (world : World) {id other : StoreId} (change : Store → Store)
    (distinct : other ≠ id) : (world.withStore id change).store other = world.store other :=
  world.stores.get_modify_ne change distinct

theorem object_withObject (world : World) (id other : InstanceId) (change : Instance → Instance) :
    (world.withObject id change).object other =
      if other = id ∧ id.index < world.instances.size then change (world.object id)
      else world.object other :=
  world.instances.get_modify id other change

theorem cls_withClass (world : World) (id other : ClassId) (change : ClassDef → ClassDef) :
    (world.withClass id change).cls other =
      if other = id ∧ id.index < world.classes.size then change (world.cls id)
      else world.cls other :=
  world.classes.get_modify id other change

end World

end ScriptObjects
