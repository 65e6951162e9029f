import ScriptObjects.Exec

/-!
# Requests

The four activities through which a run can come back to itself: calling a function
value, reading and writing a variable, and constructing an instance.  Every activity
is described without recursion, in terms of a way to perform requests; the machine
ties the knot with a budget for how deeply requests may nest.
-/

namespace ScriptObjects

set_option autoImplicit false

/-- A step of the construction protocol that can be left out. -/
inductive CreateFlag where
  | declareHostFields
  | declareScriptFields
  | assignScriptFields
  | createAnnotations
  | createFieldAnnotations
  | callConstructor
  /-- Ignores that the mode of the class forbids its creation. -/
  | enforceCreation
  | markInitialized
  deriving DecidableEq, Repr

namespace CreateFlag

/-- All flags, in the order of their bits. -/
def all : List CreateFlag :=
  [.declareHostFields, .declareScriptFields, .assignScriptFields, .createAnnotations,
   .createFieldAnnotations, .callConstructor, .enforceCreation, .markInitialized]

def name : CreateFlag → String
  | .declareHostFields => "declare_native_fields"
  | .declareScriptFields => "declare_script_fields"
  | .assignScriptFields => "assign_script_fields"
  | .createAnnotations => "create_annotations"
  | .createFieldAnnotations => "create_field_annotations"
  | .callConstructor => "call_constructor"
  | .enforceCreation => "enforce_creation"
  | .markInitialized => "mark_as_initialized"

def ofName? (name : String) : Option CreateFlag := all.find? (·.name = name)

end CreateFlag

/-- A set of flags. -/
structure CreateFlags where
  has : CreateFlag → Bool

namespace CreateFlags

/-- Every step, without ignoring the mode of the class. -/
def standard : CreateFlags := ⟨fun flag => flag ≠ .enforceCreation⟩

/-- For a host object that exists already: no constructor, whatever the mode. -/
def wrapper : CreateFlags := ⟨fun flag => flag ≠ .callConstructor⟩

def insert (flags : CreateFlags) (flag : CreateFlag) : CreateFlags :=
  ⟨fun other => other = flag || flags.has other⟩

def erase (flags : CreateFlags) (flag : CreateFlag) : CreateFlags :=
  ⟨fun other => other ≠ flag && flags.has other⟩

/-- The flags of the set, in the order of their bits. -/
def toList (flags : CreateFlags) : List CreateFlag := CreateFlag.all.filter flags.has

/-- The number whose binary digits are the flags. -/
def bits (flags : CreateFlags) : Nat :=
  CreateFlag.all.reverse.foldl (fun total flag => 2 * total + (flags.has flag).toNat) 0

end CreateFlags

/-- How an instance is created: the steps, and the call stack to continue. -/
structure CreateOptions where
  flags : CreateFlags
  context : Option ContextId

namespace CreateOptions

def standard : CreateOptions := ⟨.standard, none⟩

def wrapper : CreateOptions := ⟨.wrapper, none⟩

def has (options : CreateOptions) (flag : CreateFlag) : Bool := options.flags.has flag

end CreateOptions

instance : Inhabited CreateOptions := ⟨.standard⟩

/-- An activity that a run can ask for. -/
inductive Request where
  /-- Calls a function value on a context. -/
  | call (callable : CallableId) (args : List Value) (context : ContextId)
  /-- Reads a variable. -/
  | read (scope : Scope) (name : String)
  /-- Writes a variable. -/
  | assign (scope : Scope) (name : String) (value : Value)
  /-- Runs the construction protocol on an instance. -/
  | construct (id : InstanceId) (options : CreateOptions) (args : List Value)

/-- What an activity gives. -/
@[reducible] def Request.Answer : Request → Type
  | .call .. | .read .. => Value
  | .assign .. | .construct .. => Unit

/-- A way to perform requests. -/
abbrev Perform := (request : Request) → Exec request.Answer

end ScriptObjects
