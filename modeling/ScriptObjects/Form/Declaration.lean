import ScriptObjects.Definition
import ScriptObjects.Form.Expr
import ScriptObjects.Request

/-!
# Reading declarations

The records that describe classes, fields, functions and uses of annotations, and
the options of a construction.
-/

namespace ScriptObjects

set_option autoImplicit false

namespace Form

def readMode (form : Form) : Reading TypeMode := form.readWord TypeMode.ofText?

/-- The expression of a field; an absent field is null. -/
def expr (form : Form) (name : String) : Reading Expr :=
  readExpr ((form.field? name).getD .null)

def readUse (form : Form) : Reading (AnnotationUse String) := do
  return ⟨← form.at_ "class" readText, ← form.each "args" readExpr⟩

/-- Reads a field; what it is initialized with may be null, and counts even then. -/
def readField (form : Form) : Reading (FieldDecl String) := do
  let storage ← match ← form.at? "native" (readWord Accessor.ofName?) with
    | some accessor => pure (FieldStorage.host accessor)
    | none => pure (.script (← (form.field? "init").mapM readExpr))
  return {
    name := ← form.at_ "name" readText
    access := ← form.atD "access" .global readAccess
    type := ← form.atD "type" .any readType
    storage := storage
    annotations := ← form.each "annotations" readUse
    owner := none }

/-- Reads the body of a function, and the type it returns unless another is given. -/
def readBody (form : Form) : Reading (FunctionBody × ValueType) := do
  let params ← form.each "params" readType
  match ← form.at? "native" (readWord MethodRoutine.ofName?),
      ← form.at? "native_ctor" (readWord ConstructorRoutine.ofName?) with
  | some routine, _ => do
      let returns ← form.atD "native_returns" .any readType
      return (.hostMethod ⟨params, returns, routine⟩, returns)
  | none, some routine => return (.hostConstructor ⟨params, routine⟩, .any)
  | none, none =>
      if ← form.atD "abstract" false readBool then return (.abstract, .any)
      else return (.script (← form.expr "body"), .any)

/-- Reads a function; a host constructor needs no name. -/
def readFunction (form : Form) : Reading (FunctionDecl String) := do
  let (body, returns) ← form.readBody
  let overrides ← form.atD "override" false readBool
  let name ← match body with
    | .hostConstructor _ => pure constructorName
    | _ => form.at_ "name" readText
  return {
    name := name
    access := ← form.atD "access" .global readAccess
    role := if overrides then .override else match body with
      | .abstract => .abstract
      | _ => .ordinary
    returns := ← form.atD "returns" returns readType
    body := body
    annotations := ← form.each "annotations" readUse
    owner := none }

def readClass (form : Form) : Reading ClassSpec := do
  return {
    name := ← form.at_ "name" readText
    mode := ← form.atD "mode" .ordinary readMode
    base := ← form.at? "extends" readText
    fields := ← form.each "fields" readField
    functions := ← form.each "functions" readFunction
    annotations := ← form.each "annotations" readUse
    described := ← form.at? "describes" readHostType
    descriptor := ← form.at? "descriptor" readHostType }

/-- Reads the steps of a construction: a start, what to leave out, and what to add. -/
def readFlags (form : Form) : Reading CreateFlags := do
  let start := if ← form.atD "wrapper" false readBool then CreateFlags.wrapper else .standard
  let without ← form.each "without" (readWord CreateFlag.ofName?)
  let additions ← form.each "with" (readWord CreateFlag.ofName?)
  let flags := additions.foldl .insert (without.foldl .erase start)
  return if ← form.atD "enforced" false readBool then flags.insert .enforceCreation else flags

end Form

end ScriptObjects
