import ScriptObjects.Fault
import ScriptObjects.Hierarchy

/-!
# The registry

A class is registered when its name and its host type are free, its chain of base
names does not lead back to it, its members have distinct names, and its base, if
that is already registered, lets it extend.  A base may be registered later.
An assembly finds its classes through three tables, by name, by order of registration and
by host type, and each registration enters the class into all of them.

Validation finds the first fault among all declarations: a base that never
appeared or does not let its class extend, or an annotation that is no registered
annotation class.
-/

namespace ScriptObjects

set_option autoImplicit false

/-- A result that may be refused. -/
abbrev Refusable (α : Type) := Except Refusal α

/-! ## Defining classes -/

/-- The first name that occurs for the second time, after some names that were seen. -/
def firstRepeat? (seen : List String) : List String → Option String
  | [] => none
  | name :: rest => if name ∈ seen then some name else firstRepeat? (name :: seen) rest

namespace ClassSpec

/-- The names of all members of a class, fields first. -/
def memberNames (spec : ClassSpec) : List String :=
  spec.fields.map FieldDecl.name ++ spec.functions.map FunctionDecl.name

/-- The functions of a class, with a constructor that passes through to the base where none is
declared. -/
def completeFunctions (spec : ClassSpec) : List (FunctionDecl String) :=
  if spec.base.isSome && !spec.memberNames.contains constructorName then
    spec.functions ++ [.passThrough]
  else spec.functions

end ClassSpec

namespace World

/-- Whether a chain of base names returns to a name or to one it has met before. -/
def leadsBack (world : World) (name : String) : Nat → List String → Option String → Bool
  | 0, _, _ => false
  | _ + 1, _, none => false
  | fuel + 1, seen, some current =>
      if current = name || current ∈ seen then true
      else
        let next := (world.findClass? current).bind fun id =>
          (world.cls id).base.map fun reference => (world.classRefs.get reference).name
        world.leadsBack name fuel (current :: seen) next

/-- Whether a registered base lets a class extend it. -/
def checkInheritable (world : World) (className : String) (mode : TypeMode) (base : ClassId) :
    Refusable Unit :=
  let baseDef := world.cls base
  if baseDef.mode.inheritableBy mode then .ok ()
  else .error (.notInheritable className baseDef.name baseDef.mode)

/-- The class references that linking adds at the end of their heap. -/
abbrev Linking (α : Type) := StateM (Heap .classRef ClassRef) α

/-- A new reference to the class of a name. -/
def linkName (name : String) : Linking ClassRefId := do
  let refs ← get
  set (refs.push ⟨name, none⟩)
  return refs.next

def linkUse (use : AnnotationUse String) : Linking (AnnotationUse ClassRefId) := do
  return { cls := ← linkName use.cls, args := use.args }

def linkFunction (owner : Option Owner) (function : FunctionDecl String) : Linking Function := do
  return {
    name := function.name, access := function.access, role := function.role,
    returns := function.returns, body := function.body,
    annotations := ← function.annotations.mapM linkUse, owner := owner }

def linkField (owner : Owner) (field : FieldDecl String) : Linking Field := do
  return {
    name := field.name, access := field.access, type := field.type, storage := field.storage,
    annotations := ← field.annotations.mapM linkUse, owner := some owner }

/-- The class that a specification describes, with a reference for each name it mentions. -/
def linkClass (spec : ClassSpec) : Linking ClassDef := do
  let owner := Owner.ofClass spec.name
  return {
    name := spec.name
    hash := owner.hash
    mode := spec.mode
    base := ← spec.base.mapM linkName
    fields := ← spec.fields.mapM (linkField owner)
    functions := ← spec.completeFunctions.mapM (linkFunction (some owner))
    annotations := ← spec.annotations.mapM linkUse
    described := spec.described
    descriptor := spec.descriptor
    metaTable := none }

/-- The state with one more class, which was built by now.  Its base is followed once, and then the
class is entered into one table after the other. -/
def addClass (world : World) (spec : ClassSpec) : World :=
  let (cls, refs) := (linkClass spec).run world.classRefs
  let world := { world with classRefs := refs }
  let world := match cls.base with
    | some reference => world.touchRef reference
    | none => world
  let id := world.classes.next
  let world := { world with classes := world.classes.push cls }
  let world := { world with registry := world.registry.enterName cls.name id }
  let world := { world with registry := world.registry.enterLast id }
  { world with registry := world.registry.enterHost cls.described id }

/-! ## Registering -/

/-- A request to the registry: it may change the state, and it may be refused on the way. -/
abbrev Registering (α : Type) := ExceptT Refusal (StateM World) α

/-- Registers a class.  The first reason against it is reported.  A class that is refused is given up,
and with it the references that were made for it. -/
def define (spec : ClassSpec) : Registering Unit := do
  if ((← get).findClass? spec.name).isSome then
    throw (.duplicateClass spec.name)
  if let some host := spec.described then
    if let some existing := (← get).classForHost? host then
      throw (.duplicateHostType host.fullName ((← get).cls existing).name)
  if (← get).leadsBack spec.name ((← get).classes.size + 2) [] spec.base then
    throw (.circularInheritance spec.name)
  if let some member := firstRepeat? [] spec.memberNames then
    throw (.duplicateMember spec.name member)
  if let some base := spec.base.bind (← get).findClass? then
    (← get).checkInheritable spec.name spec.mode base
  modify (·.addClass spec)

/-- Registers a function of the assembly. -/
def defineFunction (spec : FunctionDecl String) : Registering Unit := do
  if ((← get).function? spec.name).isSome then
    throw (.duplicateFunction spec.name)
  let (function, refs) := (linkFunction none spec).run (← get).classRefs
  modify fun world =>
    { world with classRefs := refs, functions := world.functions ++ [function] }

/-! ## Validation -/

/-- Follows a reference. -/
def follow (reference : ClassRefId) : StateM World (Option ClassId) := do
  let world ← get
  set (world.touchRef reference)
  return world.target? reference

/-- Checks the uses of annotations on one declaration. -/
def validateUses (target : String) : List (AnnotationUse ClassRefId) → Registering Unit
  | [] => return
  | use :: rest => do
      let name := ((← get).classRefs.get use.cls).name
      match ← (follow use.cls : StateM World _) with
      | none => throw (.unknownMarker target name)
      | some id =>
          let cls := (← get).cls id
          if cls.mode = .marker then validateUses target rest
          else throw (.notMarker target cls.name)

/-- Checks one class: its base, then the annotations on it, its fields and its functions. -/
def validateClass (id : ClassId) : Registering Unit := do
  let cls := (← get).cls id
  if let some reference := cls.base then
    match ← (follow reference : StateM World _) with
    | none => throw (.unknownBase cls.name ((← get).classRefs.get reference).name)
    | some base => (← get).checkInheritable cls.name cls.mode base
  validateUses cls.name cls.annotations
  cls.fields.forM fun field => validateUses (cls.name ++ "." ++ field.name) field.annotations
  cls.functions.forM fun function => validateUses function.label function.annotations

/-- Checks all declarations; the first fault is reported. -/
def validate : Registering Unit := do
  (← get).registry.order.forM validateClass
  (← get).functions.forM fun function => validateUses function.label function.annotations

end World

end ScriptObjects
