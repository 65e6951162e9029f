import ScriptObjects.Fault
import ScriptObjects.Hierarchy
import ScriptObjects.Snapshot

/-!
# Descriptions

What a session is told about the parts of an assembly: faults with their causes,
classes, members, meta-functions, instances, stores and call stacks, each as a
record of named parts.  A part that a thing does not have is null.
-/

namespace ScriptObjects

set_option autoImplicit false

namespace Snapshot

/-- A part that may be missing. -/
def optional {α : Type} (describe : α → Snapshot) : Option α → Snapshot
  | some thing => describe thing
  | none => .null

/-- A description of each thing of a list. -/
def each {α : Type} (describe : α → Snapshot) (things : List α) : Snapshot :=
  .list (things.map describe)

def count (n : Nat) : Snapshot := .int n

end Snapshot

/-! ## Faults -/

/-- What went wrong with one variable; the name of a lookup comes apart from its wording. -/
def LookupFault.outline (fault : LookupFault) : List (String × Snapshot) :=
  [("error", .text (Fault.lookup fault).kind), ("message", .text fault.message),
   ("state", .text fault.state.text), ("name", .text fault.name),
   ("detail", .optional .text fault.detail)]

/-- The kind, wording and classification of a fault. -/
def Fault.heading (fault : Fault) : List (String × Snapshot) :=
  [("error", .text fault.kind), ("message", .text fault.message),
   ("state", .text fault.state.text)]

/-- A fault with the whole chain of its causes. -/
def Fault.outline (fault : Fault) : List (String × Snapshot) :=
  match fault with
  | .lookup inner => inner.outline
  | .declaration _ _ cause => fault.heading ++ [("cause", .record cause.outline)]
  | .attachment _ _ cause | .initializer _ _ cause | .construction _ cause
  | .hookFailed _ cause => fault.heading ++ [("cause", .record cause.outline)]
  | _ => fault.heading

/-- The classification of a lookup that failed. -/
def Fault.describeState (fault : Fault) : Snapshot :=
  .record [("state", .text fault.state.text), ("success", .bool (fault.state = .success)),
    ("not_declared", .bool (fault.state = .notDeclared))]

def Refusal.outline (refusal : Refusal) : List (String × Snapshot) :=
  [("error", .text refusal.kind), ("message", .text refusal.message)]

/-! ## Declarations -/

namespace World

/-- The uses of annotations, each by class and number of arguments. -/
def describeUses (world : World) (uses : List (AnnotationUse ClassRefId)) : Snapshot :=
  .each (fun use => .list [.text (world.classRefs.get use.cls).name, .count use.args.length]) uses

def describeFunction (world : World) (function : Function) : Snapshot :=
  .record [("name", .text function.name), ("access", .text function.access.text),
    ("member", .text function.role.text), ("returns", .text function.returns.name),
    ("kind", .text function.body.kindName), ("constructor", .bool function.isConstructor),
    ("label", .text function.label),
    ("owner", .optional (fun owner => .text owner.name) function.owner),
    ("annotations", world.describeUses function.annotations)]

def describeStorage : FieldStorage → Snapshot
  | .script initializer => .record [("initializer", .bool initializer.isSome)]
  | .host accessor => .record [("writable", .bool accessor.isWritable)]

def describeField (world : World) (field : Field) : Snapshot :=
  .record [("name", .text field.name), ("access", .text field.access.text),
    ("type", .text field.type.name), ("native", .bool field.isHost),
    ("storage", describeStorage field.storage),
    ("owner", .optional (fun owner => .text owner.name) field.owner),
    ("annotations", world.describeUses field.annotations)]

def className (world : World) (id : ClassId) : Snapshot := .text (world.cls id).name

/-- A class, whose chain is followed as far as bases are registered. -/
def describeClass (world : World) (id : ClassId) : Snapshot :=
  let cls := world.cls id
  let chain := world.ancestors id
  let functions := cls.functions.mergeSort fun a b => !(b.name < a.name)
  .record [("name", .text cls.name), ("hash", .text cls.hash.text), ("mode", .text cls.mode.text),
    ("base", .optional (fun r => .text (world.classRefs.get r).name) cls.base),
    ("base_found", .optional world.className (cls.base.bind world.target?)),
    ("creatable", .bool cls.mode.creatable),
    ("depth", .count chain.length), ("ancestors", .each world.className chain),
    ("fields", .each world.describeField cls.fields),
    ("functions", .each world.describeFunction functions),
    ("annotations", world.describeUses cls.annotations),
    ("describes", .optional (fun type => .text type.tag) cls.described),
    ("descriptor", .optional (fun type => .text type.tag) cls.descriptor)]

/-- A class reference, and the class it was found to stand for. -/
def describeRef (world : World) (id : ClassRefId) (found : Option ClassId) : Snapshot :=
  let reference := world.classRefs.get id
  .record [("name", .text reference.name), ("resolved", .bool reference.isResolved),
    ("found", .optional world.className found)]

end World

def MetaLink.describe (link : MetaLink) : Snapshot :=
  .list [.text link.key.methodName, .text link.owner.name, .text link.access.text,
    .text link.function.label]

def MetaTable.describe (table : MetaTable) : Snapshot :=
  .record [("len", .count table.links.length), ("empty", .bool table.links.isEmpty),
    ("links", .each MetaLink.describe table.links)]

def MetaKey.describe (key : MetaKey) : Snapshot :=
  .record [("name", .text key.methodName), ("slot", .count key.slot),
    ("annotation_hook", .bool key.isAnnotationHook), ("binary", .bool key.isBinary),
    ("returns", .text key.expectedReturn.name)]

/-! ## Names and rules -/

/-- The identity of a name, and of members below it and of the name below the empty identity. -/
def TypeHash.describe (name : String) (members : List String) : Snapshot :=
  let hash := TypeHash.ofName name
  .record [("hash", .text hash.text), ("empty", .bool hash.isEmpty),
    ("members", .each (fun member => .text (hash.ofMember member).text) members),
    ("empty_member", .text (TypeHash.empty.ofMember name).text)]

/-- A mode, and what it allows to a class of another mode. -/
def TypeMode.describe (mode derived : TypeMode) : Snapshot :=
  .record [("mode", .text mode.text), ("creatable", .bool mode.creatable),
    ("inheritable", .bool (mode.inheritableBy derived))]

/-- A tier, and whether it admits a member of another tier. -/
def Access.describe (access member : Access) : Snapshot :=
  .record [("access", .text access.text), ("index", .count access.index),
    ("admits", .bool (access.admits member)), ("declared_only", .bool (access = .localOnly))]

def Config.describe (config : Config) : Snapshot :=
  .record [("max_call_depth", .optional .count config.maxCallDepth),
    ("trace_frames", .bool config.traceFrames),
    ("check_return_types", .bool config.checkReturnTypes)]

/-! ## Instances, stores and contexts -/

namespace World

/-- The class of each level of an instance, and whether its host reference is bound. -/
def describeLevels (world : World) (id : InstanceId) : Snapshot :=
  .each (fun level => .list [world.className level.cls,
    .bool (world.references.get level.reference).bound.isSome]) (world.object id).levels

def describeInstance (world : World) (id : InstanceId) : Snapshot :=
  let object := world.object id
  .record [("id", .count (instanceNumber id)), ("class", .text (world.classOf id).name),
    ("depth", .count object.levels.length), ("levels", world.describeLevels id),
    ("initialized", .bool object.initialized),
    ("annotations", .each (fun id => world.snapshot (.object id)) object.annotations),
    ("host", .optional (fun host => world.snapshot (.host host)) object.host)]

/-- A function value, the instance it runs against while that lives, and what it was declared
as. -/
def describeCallable (world : World) (id : CallableId) : Snapshot :=
  let callable := world.callables.get id
  let receiver := (callable.receiver.map Receiver.owner).filter fun owner =>
    (world.object owner).alive
  .record [("callable", world.snapshot (.function id)),
    ("receiver", .optional (fun owner => world.snapshot (.object owner)) receiver),
    ("function", .optional world.describeFunction callable.function)]

/-- The ways in which a value can be read. -/
def describeValue (world : World) (value : Value) : Snapshot :=
  .record [("type", .text (world.typeName value)), ("truthy", .bool value.isTruthy),
    ("null", .bool value.isNull), ("bool", .optional .bool value.asBool?),
    ("int", .optional (fun i => .int i.toInt) value.asInt?),
    ("float", .optional .float value.asFloat?), ("str", .optional .text value.asText?),
    ("table", .bool value.asTable?.isSome), ("function", .bool value.asFunction?.isSome),
    ("instance", .bool value.asObject?.isSome), ("native", .bool value.asHost?.isSome),
    ("key", .optional (fun key => world.snapshot key.toValue) (TableKey.ofValue? value))]

/-- The sequence of a table, its ends, and what is kept under the key for construction. -/
def describeTable (world : World) (id : TableId) : Snapshot :=
  let table := world.tables.get id
  .record [("len", .count table.length), ("empty", .bool table.isEmpty),
    ("sequence", .each world.snapshot table.sequence),
    ("first", world.snapshot (table.get (.position 1))),
    ("last", world.snapshot (table.get (.position table.length))),
    ("new_args", world.snapshot (table.get (.text "new_args")))]

end World

/-- The declared names of a store and their types. -/
def Store.describe (store : Store) : List (String × Snapshot) :=
  [("len", .count store.slots.length), ("empty", .bool store.slots.isEmpty),
   ("types", .each (fun entry => .list [.text entry.1, .text entry.2.name]) store.signature)]

def FrameKind.text : FrameKind → String
  | .function => "function"
  | .construction => "constructor"
  | .synthetic => "synthetic"

def FrameKind.ofText? : String → Option FrameKind
  | "function" => some .function
  | "constructor" => some .construction
  | "synthetic" => some .synthetic
  | _ => none

/-- A call stack, its outermost frame first. -/
def Context.describe (context : Context) : Snapshot :=
  .record [("depth", .count context.depth), ("trace", .text context.trace),
    ("frames", .each (fun frame => .list [.text frame.kind.text, .text frame.label,
      .text frame.text]) context.frames.reverse)]

end ScriptObjects
