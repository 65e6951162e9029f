import ScriptObjects.Proofs.Changes

/-!
# The parts of a construction

A value crosses the host boundary in several parts.  A construction is its levels and
then its constructor; a level is the annotations of its class and then its fields; a
field is its declaration and then what fills it.  Each part is named here, and each
activity is put together from its parts.
-/

namespace ScriptObjects

set_option autoImplicit false

open Exec

/-! ## Values at the boundary -/

/-- The last part of a conversion to the host: the host object of an accepted value. -/
def formHost (type : ValueType) (value : Value) (unsupported : Fault) : Exec HostId := do
  match ← hostForm type value with
  | some host => return host
  | none => throw unsupported

/-- The part of a conversion to the host that follows the rules of the session. -/
def convertHost (type : ValueType) (value : Value) (unsupported : Fault) : Exec HostId := do
  unless ← Exec.accepts type value do
    throw unsupported
  match ← hostForm type value with
  | some host => return host
  | none => throw unsupported

/-- The last part of taking a value back from the host: the form in which it is stored. -/
def coerceBack (type : ValueType) (value : Value) : Exec Value := do
  match ← Exec.coerce? type value with
  | some value => return value
  | none => throw (.unmarshalable ((← get).typeName value) type.name)

/-- The part of taking a host object back that follows the rules of the session. -/
def takeBack (perform : Perform) (type : ValueType) (host : HostId) (object : HostObject) :
    Exec Value := do
  let value ← match object.directValue? with
    | some value => pure value
    | none => wrapHost perform host
  coerceBack type value

/-- The check of a result where results are checked. -/
def coerceReturn (returns : ValueType) (result : Value) : Exec Value := do
  match ← Exec.coerce? returns result with
  | some result => return result
  | none => throw (.typeMismatch returns.name (← typeNameOf result))

/-! ## Fields -/

/-- The declaration of a field. -/
def declareField (className : String) (level : Level) (field : Field) : Exec Unit :=
  (insertSlot (level.declarations field.access) field.name
    (fieldSlot field level.reference)).wrapFault (declarationFault className field.name)

/-- The annotations of a field, created and attached. -/
def annotateField (perform : Perform) (className : String) (receiver : Receiver) (level : Level)
    (options : CreateOptions) (context : ContextId) (field : Field) : Exec Unit := do
  if options.has .createFieldAnnotations && !field.annotations.isEmpty then
    let created ← createAnnotations perform (className ++ "." ++ field.name) (some receiver)
      context field.annotations
    (annotateSlot (level.declarations field.access) field.name created).wrapFault
      (declarationFault className field.name)

/-- The value of a field, as far as the options ask for it. -/
def fillField (perform : Perform) (receiver : Receiver) (level : Level) (options : CreateOptions)
    (context : ContextId) (field : Field) : Exec Unit := do
  if options.has .assignScriptFields then
    initializeField perform receiver (level.declarations field.access) field context

/-- The flag that asks for the declaration of a field. -/
def Field.flag (field : Field) : CreateFlag :=
  if field.isHost then .declareHostFields else .declareScriptFields

section

variable {perform : Perform} {className : String} {receiver : Receiver} {level : Level}
  {options : CreateOptions} {context : ContextId} {field : Field}

theorem constructField_of_wanted (wanted : options.has field.flag = true) :
    constructField perform className receiver level options context field = (do
      declareField className level field
      annotateField perform className receiver level options context field
      fillField perform receiver level options context field) := by
  unfold Field.flag at wanted
  unfold constructField annotateField fillField
  rw [if_pos wanted]
  by_cases annotated : (options.has .createFieldAnnotations && !field.annotations.isEmpty) = true
  · simp only [if_pos annotated, bind_assoc]
    rfl
  · simp only [if_neg annotated, pure_bind]
    rfl

theorem constructField_of_unwanted (unwanted : options.has field.flag = false) :
    constructField perform className receiver level options context field = pure () := by
  unfold Field.flag at unwanted
  unfold constructField
  rw [if_neg (by simpa using unwanted)]

end

/-! ## Levels -/

/-- The annotations of the class of a level, created and attached to the instance. -/
def annotateLevel (perform : Perform) (id : InstanceId) (options : CreateOptions)
    (context : ContextId) (place : Nat) (cls : ClassDef) : Exec Unit := do
  if options.has .createAnnotations && !cls.annotations.isEmpty then
    let created ← createAnnotations perform cls.name (some ⟨id, place⟩) context cls.annotations
    Exec.change (·.withObject id fun object =>
      { object with annotations := object.annotations ++ created })

theorem constructLevel_of_some {perform : Perform} {id : InstanceId} {options : CreateOptions}
    {context : ContextId} {place : Nat} {world : World} {level : Level}
    (sits : world.level? id place = some level) :
    constructLevel perform id options context place world = (do
      annotateLevel perform id options context place (world.cls level.cls)
      constructFields perform (world.cls level.cls).name ⟨id, place⟩ level options context
        (world.cls level.cls).fields : Exec Unit) world := by
  unfold constructLevel annotateLevel
  rw [get_bind_apply, sits]
  dsimp only
  rw [get_bind_apply]
  by_cases wanted : (options.has .createAnnotations &&
      !(world.cls level.cls).annotations.isEmpty) = true
  · simp only [if_pos wanted, bind_assoc]
  · simp only [if_neg wanted, pure_bind]

theorem constructLevel_of_none {perform : Perform} {id : InstanceId} {options : CreateOptions}
    {context : ContextId} {place : Nat} {world : World} (beyond : world.level? id place = none) :
    constructLevel perform id options context place world = (.done (), world) := by
  unfold constructLevel
  rw [get_bind_apply, beyond]
  rfl

/-! ## Instances -/

/-- The context on which an instance is constructed. -/
def constructionContext (options : CreateOptions) : Exec ContextId :=
  match options.context with
  | some context => pure context
  | none => Exec.newConfiguredContext

/-- What follows the levels: the constructor, and the mark that the instance is initialized. -/
def finishInstance (perform : Perform) (id : InstanceId) (options : CreateOptions)
    (args : List Value) (className : String) (context : ContextId) : Exec Unit := do
  if options.has .callConstructor then
    Exec.wrapFault (.construction className) (callConstructor perform id args context)
  if options.has .markInitialized then
    Exec.change (·.withObject id fun object => { object with initialized := true })

section

variable {perform : Perform} {id : InstanceId} {options : CreateOptions} {args : List Value}
  {world : World}

theorem constructInstance_of_initialized (initialized : (world.object id).initialized = true) :
    constructInstance perform id options args world =
      (.failed (.alreadyInitialized (world.classOf id).name (World.instanceNumber id)), world) := by
  unfold constructInstance
  rw [get_bind_apply, get_bind_apply, if_pos initialized, throw_bind_apply]

theorem constructInstance_of_new (new : (world.object id).initialized = false) :
    constructInstance perform id options args world = (do
      let context ← constructionContext options
      constructLevels perform id options context (world.object id).levels.length
      finishInstance perform id options args (world.classOf id).name context : Exec Unit)
      world := by
  unfold constructInstance constructionContext
  rw [get_bind_apply, get_bind_apply, if_neg (by simp [new])]
  cases options.context <;> rfl

end

end ScriptObjects
