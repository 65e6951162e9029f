import ScriptObjects.Annotations
import ScriptObjects.Scope.Declare
import ScriptObjects.Scope.Variables

/-!
# The construction protocol

Construction initializes the levels of an instance from the root of its chain to
the most derived class.  On each level the class annotations are created and
attached; then every field is declared, receives its own annotations, and is
assigned the value of its initializer.  Last the constructor runs, between the
pre-construct and the post-construct hooks of the attached annotations.

A pre-construct hook may hand back a table with other arguments for the hooks after
it and for the constructor.  The first fault ends the protocol, and nothing that was
done before it is undone.
-/

namespace ScriptObjects

set_option autoImplicit false

/-! ## Levels and fields -/

/-- Assigns a field the value of its initializer, if it has one. -/
def initializeField (perform : Perform) (receiver : Receiver) (store : StoreId) (field : Field)
    (context : ContextId) : Exec Unit := do
  match field.storage with
  | .host _ | .script none => return
  | .script (some initializer) =>
      let fallback := ((← get).classOf receiver.owner).name
      let className := (field.owner.map Owner.name).getD fallback
      Exec.wrapFault (.initializer className field.name) do
        let value ← evaluate perform (some ⟨context, some receiver, []⟩) initializer
        perform (.assign (.store store) field.name value)

/-- A fault of a declaration, as the construction of a field reports it. -/
def declarationFault (className field : String) : Fault → Fault
  | .lookup cause => .declaration className field cause
  | other => other

/-- The slot in which a field is kept. -/
def fieldSlot (field : Field) (reference : ReferenceId) : Slot :=
  match field.storage with
  | .script _ => .unassigned field.type
  | .host accessor => .hosted field.type accessor reference

/-- Declares one field, creates its annotations and initializes it, as far as the options say. -/
def constructField (perform : Perform) (className : String) (receiver : Receiver) (level : Level)
    (options : CreateOptions) (context : ContextId) (field : Field) : Exec Unit := do
  let declares := if field.isHost then CreateFlag.declareHostFields else .declareScriptFields
  if options.has declares then
    let store := level.declarations field.access
    let declaring (run : Exec Unit) := run.wrapFault (declarationFault className field.name)
    declaring (insertSlot store field.name (fieldSlot field level.reference))
    if options.has .createFieldAnnotations && !field.annotations.isEmpty then
      let target := className ++ "." ++ field.name
      let created ← createAnnotations perform target (some receiver) context field.annotations
      declaring (annotateSlot store field.name created)
    if options.has .assignScriptFields then
      initializeField perform receiver store field context

/-- Constructs several fields, in order. -/
def constructFields (perform : Perform) (className : String) (receiver : Receiver) (level : Level)
    (options : CreateOptions) (context : ContextId) : List Field → Exec Unit
  | [] => return
  | field :: rest => do
      constructField perform className receiver level options context field
      constructFields perform className receiver level options context rest

/-- Attaches the class annotations of a level and constructs its fields. -/
def constructLevel (perform : Perform) (id : InstanceId) (options : CreateOptions)
    (context : ContextId) (place : Nat) : Exec Unit := do
  match (← get).level? id place with
  | none => return
  | some level =>
      let cls := (← get).cls level.cls
      let receiver : Receiver := ⟨id, place⟩
      if options.has .createAnnotations && !cls.annotations.isEmpty then
        let created ← createAnnotations perform cls.name (some receiver) context cls.annotations
        Exec.change (·.withObject id fun object =>
          { object with annotations := object.annotations ++ created })
      constructFields perform cls.name receiver level options context cls.fields

/-- Constructs the levels below a place, the least derived first. -/
def constructLevels (perform : Perform) (id : InstanceId) (options : CreateOptions)
    (context : ContextId) : Nat → Exec Unit
  | 0 => return
  | place + 1 => do
      constructLevel perform id options context place
      constructLevels perform id options context place

/-! ## Constructors and their hooks -/

/-- The nearest constructor along the chain of an instance, or one that does nothing. -/
def resolveConstructor (perform : Perform) (id : InstanceId) : Exec CallableId := do
  let cls := ((← get).object id).cls
  match ← Exec.metaLink? cls .construct with
  | none => Exec.newCallable (.placeholder ((← get).cls cls).name)
  | some link =>
      let level := ((← get).levelOf? id link.owner.hash).getD 0
      match ← openScope? id ⟨level, link.access, .declarations⟩ with
      | none => throw (.instanceDropped constructorName)
      | some scope => requireFunction (← perform (.read scope constructorName))

/-- The arguments after a pre-construct hook: those of the table it returned under `new_args`,
and otherwise unchanged. -/
def replacedArgs (world : World) (args : List Value) : Option Value → List Value
  | some (.table id) =>
      match (world.tables.get id).get (.text "new_args") with
      | .table list => (world.tables.get list).sequence
      | _ => args
  | _ => args

/-- Runs the pre-construct hooks in order, and gives the arguments they leave. -/
def preConstruct (perform : Perform) (id : InstanceId) (context : ContextId)
    (args : List Value) : List InstanceId → Exec (List Value)
  | [] => return args
  | annotation :: rest => do
      let list ← Exec.newList args
      let result ← hook perform context annotation .preConstruct [.object id, list]
      preConstruct perform id context (replacedArgs (← get) args result) rest

/-- Runs the post-construct hooks in order. -/
def postConstruct (perform : Perform) (id : InstanceId) (context : ContextId)
    (args : List Value) : List InstanceId → Exec Unit
  | [] => return
  | annotation :: rest => do
      let list ← Exec.newList args
      let _ ← hook perform context annotation .postConstruct [.object id, list]
      postConstruct perform id context args rest

/-- Calls the constructor of an instance between the hooks of its annotations. -/
def callConstructor (perform : Perform) (id : InstanceId) (args : List Value)
    (context : ContextId) : Exec Unit := do
  let constructor ← resolveConstructor perform id
  let annotations := ((← get).object id).annotations
  let phase := Frame.synthetic (((← get).classOf id).name ++ "." ++ MetaKey.preConstruct.methodName)
  let args ← Exec.withFrame context phase (preConstruct perform id context args annotations)
  let _ ← perform (.call constructor args context)
  postConstruct perform id context args annotations

/-! ## The protocol -/

/-- Runs the construction protocol on an instance. -/
def constructInstance (perform : Perform) (id : InstanceId) (options : CreateOptions)
    (args : List Value) : Exec Unit := do
  let object := (← get).object id
  let className := ((← get).classOf id).name
  if object.initialized then
    throw (.alreadyInitialized className (World.instanceNumber id))
  let context ← match options.context with
    | some context => pure context
    | none => Exec.newConfiguredContext
  constructLevels perform id options context object.levels.length
  if options.has .callConstructor then
    Exec.wrapFault (.construction className) (callConstructor perform id args context)
  if options.has .markInitialized then
    Exec.change (·.withObject id fun object => { object with initialized := true })

end ScriptObjects
