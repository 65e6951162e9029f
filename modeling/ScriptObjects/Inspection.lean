import ScriptObjects.Number.Layout
import ScriptObjects.Scope.Basic
import ScriptObjects.Text.Quoted
import ScriptObjects.World

/-!
# Inspection texts

The texts in which a developer sees the parts of a session: a record is written as
its name and its fields between braces, and dots stand for fields that are left
out.  Texts inside are quoted, floats always have a point or an exponent.
-/

namespace ScriptObjects

set_option autoImplicit false

namespace Inspection

/-- A record with all its fields. -/
def record (name : String) (fields : List (String × String)) : String :=
  name ++ " \x7b " ++
    String.intercalate ", " (fields.map fun field => field.1 ++ ": " ++ field.2) ++ " \x7d"

/-- A record some of whose fields are left out. -/
def openRecord (name : String) (fields : List (String × String)) : String :=
  name ++ " \x7b " ++
    String.join (fields.map fun field => field.1 ++ ": " ++ field.2 ++ ", ") ++ ".. \x7d"

/-- Texts in brackets. -/
def list (items : List String) : String := "[" ++ String.intercalate ", " items ++ "]"

/-- A text that may be missing. -/
def optional : Option String → String
  | some text => "Some(" ++ text ++ ")"
  | none => "None"

def bool (b : Bool) : String := if b then "true" else "false"

def access : Access → String
  | .global => "Global"
  | .internal => "Internal"
  | .localOnly => "Local"

def mode : TypeMode → String
  | .ordinary => "Default"
  | .sealed => "Sealed"
  | .abstract => "Abstract"
  | .singleton => "Singleton"
  | .marker => "Annotation"

/-- The kind of a function value. -/
def callableKind (callable : Callable) : String :=
  match callable.function with
  | none => "Placeholder"
  | some function =>
      match function.body with
      | .script _ => "Script"
      | .hostMethod _ => "NativeMethod"
      | .hostConstructor _ => "NativeConstructor"
      | .passThrough => "PassThrough"
      | .abstract => "Abstract"

def callable (callable : Callable) : String :=
  record "Callable"
    [("label", Text.quoted callable.label), ("kind", callableKind callable),
     ("level", optional (callable.level?.map toString))]

def value (world : World) : Value → String
  | .null => "Null"
  | .bool b => "Bool(" ++ bool b ++ ")"
  | .int i => "Int(" ++ toString i.toInt ++ ")"
  | .float f => "Float(" ++ Number.Layout.inspection.text f ++ ")"
  | .text s => "String(" ++ Text.quoted s ++ ")"
  | .table id => "Table(len=" ++ toString (world.tables.get id).length ++ ")"
  | .function id => "Function(" ++ (world.callables.get id).label ++ ")"
  | .object id =>
      "Instance(" ++ (world.classOf id).name ++ "#" ++ toString (World.instanceNumber id) ++ ")"
  | .host id => "Native(" ++ (world.hosts.get id).type.fullName ++ ")"

def object (world : World) (id : InstanceId) : String :=
  let object := world.object id
  record "Instance"
    [("id", toString (World.instanceNumber id)), ("class", Text.quoted (world.classOf id).name),
     ("depth", toString object.levels.length), ("initialized", bool object.initialized)]

def classRef (reference : ClassRef) : String :=
  if reference.isResolved then "ClassRef::Resolved(" ++ reference.name ++ ")"
  else "ClassRef::Unresolved(" ++ reference.name ++ ")"

/-- The base of a class, resolved or not. -/
def base (world : World) (cls : ClassDef) : String :=
  optional (cls.base.map fun reference => classRef (world.classRefs.get reference))

def classDef (world : World) (cls : ClassDef) : String :=
  openRecord "ClassDefinition"
    [("name", Text.quoted cls.name), ("type_mode", mode cls.mode), ("base", base world cls),
     ("fields", toString cls.fields.length), ("functions", toString cls.functions.length)]

def annotationUse (world : World) (use : AnnotationUse ClassRefId) : String :=
  record "AnnotationUse"
    [("class", Text.quoted (world.classRefs.get use.cls).name),
     ("args", toString use.args.length)]

def fieldStorage : FieldStorage → String
  | .script initializer => record "Script" [("initialized", bool initializer.isSome)]
  | .host accessor =>
      "Native(" ++ openRecord "NativeField" [("writable", bool accessor.isWritable)] ++ ")"

def typeHash (hash : TypeHash) : String := "TypeHash(" ++ hash.text ++ ")"

def reference (reference : HostReference) : String :=
  record "DynamicReference"
    [("class", Text.quoted reference.className), ("resolved", bool reference.bound.isSome)]

/-- A store and where it is at home. -/
def store (world : World) (store : Store) : String :=
  let (owner, tier) := match store.home with
    | .level _ level cls tier => ((world.cls cls).name ++ "@" ++ toString level, tier)
    | .root tier => ("<assembly>", tier)
    | .free _ => ("", .global)
  record "DeclarationScope"
    [("owner", Text.quoted owner), ("access", access tier),
     ("declared", toString store.slots.length)]

def composite (sources : Nat) : String := record "CompositeScope" [("sources", toString sources)]

def config (config : Config) : String :=
  record "RuntimeConfig"
    [("max_call_depth", optional (config.maxCallDepth.map toString)),
     ("check_return_types", bool config.checkReturnTypes),
     ("trace_frames", bool config.traceFrames)]

/-- The assembly of a session. -/
def assembly (world : World) : String :=
  openRecord "Assembly"
    [("classes", toString world.classes.size), ("functions", toString world.functions.length),
     ("config", config world.config)]

end Inspection

end ScriptObjects
