import ScriptObjects.MetaKey
import ScriptObjects.TypeMode

/-!
# Faults

A run of the object model either gives a result or ends in a fault.  A fault names
its cause in the words of the domain; the faults of construction and of dispatch
may wrap the fault that brought them about, so that a fault carries the whole
chain of causes.  The wording of each fault is given once, by `Fault.message`.

Refusals concern the declarations of a registry and are kept apart: they arise
before anything runs.
-/

namespace ScriptObjects

set_option autoImplicit false

/-- The outcome of looking a variable up, as a short classification. -/
inductive LookupState where
  | success
  | notDeclared
  | notAssigned
  | typeMismatch
  | unresolvedReference
  | hostException
  | runtimeError
  deriving DecidableEq, Repr, Inhabited

def LookupState.text : LookupState → String
  | .success => "success"
  | .notDeclared => "not declared"
  | .notAssigned => "not assigned"
  | .typeMismatch => "type mismatch"
  | .unresolvedReference => "could not resolve native reference"
  | .hostException => "native exception"
  | .runtimeError => "runtime error"

/-- The failure of a lookup, a declaration or an assignment of one variable. -/
structure LookupFault where
  name : String
  state : LookupState
  detail : Option String
  deriving DecidableEq, Repr, Inhabited

namespace LookupFault

def notDeclared (name : String) : LookupFault := ⟨name, .notDeclared, none⟩

def notAssigned (name : String) : LookupFault := ⟨name, .notAssigned, none⟩

def alreadyDeclared (name : String) : LookupFault :=
  ⟨name, .runtimeError, some "already declared"⟩

def immutableFunction (name : String) : LookupFault :=
  ⟨name, .runtimeError, some "functions are immutable"⟩

def noSources (name : String) : LookupFault :=
  ⟨name, .runtimeError, some "scope has no sources"⟩

def typeMismatch (name expected actual : String) : LookupFault :=
  ⟨name, .typeMismatch, some s!"expected {expected}, got {actual}"⟩

/-- The state, the name in quotation marks, and the detail where there is one. -/
def message (fault : LookupFault) : String :=
  fault.state.text ++ " '" ++ fault.name ++ "'" ++
    match fault.detail with
    | some detail => ": " ++ detail
    | none => ""

end LookupFault

/-- Why a run ended without a result. -/
inductive Fault where
  /-- A variable could not be read, declared or written. -/
  | lookup (fault : LookupFault)
  /-- The class to construct is not registered. -/
  | unknownClass (name : String)
  /-- The mode of the class forbids its creation. -/
  | notCreatable (className : String) (mode : TypeMode)
  /-- The instance was constructed before. -/
  | alreadyInitialized (className : String) (id : Nat)
  /-- A field could not be declared during construction. -/
  | declaration (className field : String) (cause : LookupFault)
  /-- An annotation could not be created. -/
  | attachment (target className : String) (cause : Fault)
  /-- The initializer of a field failed. -/
  | initializer (className field : String) (cause : Fault)
  /-- The constructor failed. -/
  | construction (className : String) (cause : Fault)
  /-- No operand answers to an operator. -/
  | unsupported (key : MetaKey) (operand : String)
  /-- A meta-function returned a value of the wrong type. -/
  | returnType (key : MetaKey) (expected actual : String)
  /-- The name of a meta-function is bound to something that is no function. -/
  | hookNotCallable (key : MetaKey) (actual : String)
  /-- A meta-function failed. -/
  | hookFailed (key : MetaKey) (cause : Fault)
  /-- Host code raised an exception. -/
  | hostException (message : String)
  /-- A host function was given the wrong number of arguments. -/
  | argumentCount (expected actual : Nat)
  /-- A host function was called on an object of another type. -/
  | receiverType (expected : String)
  /-- A value cannot cross the host boundary at a type. -/
  | unmarshalable (source target : String)
  /-- A function returned a value its return type does not accept. -/
  | typeMismatch (expected actual : String)
  /-- A value that is no function was called. -/
  | notCallable (typeName : String)
  /-- A function without a body was called. -/
  | abstractCall (label : String)
  /-- A level has no host object. -/
  | unresolvedReference (className : String)
  /-- The call stack is full. -/
  | stackOverflow (limit : Nat)
  /-- Raised by a script. -/
  | script (message : String)
  /-- The assembly that owns the declarations is gone. -/
  | assemblyDropped
  /-- The instance a function is bound to is gone. -/
  | instanceDropped (label : String)
  deriving DecidableEq, Repr, Inhabited

namespace Fault

/-- The wording of a fault, without that of its cause. -/
def message : Fault → String
  | .lookup fault => fault.message
  | .unknownClass name => s!"class '{name}' is not defined"
  | .notCreatable className mode =>
      "class '" ++ className ++ "' cannot be created (" ++ mode.text ++ ")"
  | .alreadyInitialized className id =>
      "instance " ++ toString id ++ " of '" ++ className ++ "' is already initialized"
  | .declaration className field _ => s!"field '{field}' of '{className}' could not be declared"
  | .attachment target className _ => s!"annotation '{className}' on '{target}' failed"
  | .initializer className field _ => s!"initializer of '{className}.{field}' failed"
  | .construction className _ => s!"constructor of '{className}' failed"
  | .unsupported key operand =>
      "'" ++ key.methodName ++ "' is not supported for " ++ operand
  | .returnType key expected actual =>
      "'" ++ key.methodName ++ "' returned " ++ actual ++ ", expected " ++ expected
  | .hookNotCallable key actual =>
      "'" ++ key.methodName ++ "' resolved to a non-callable " ++ actual
  | .hookFailed key _ => "'" ++ key.methodName ++ "' failed"
  | .hostException message => s!"native exception: {message}"
  | .argumentCount expected actual => s!"expected {expected} arguments, got {actual}"
  | .receiverType expected => s!"receiver is not a {expected}"
  | .unmarshalable source target => s!"cannot marshal {source} to {target}"
  | .typeMismatch expected actual => s!"type mismatch: expected {expected}, got {actual}"
  | .notCallable typeName => s!"value of type {typeName} is not callable"
  | .abstractCall label => s!"function '{label}' is abstract"
  | .unresolvedReference className =>
      s!"could not resolve the native object of '{className}'"
  | .stackOverflow limit => s!"call depth limit of {limit} exceeded"
  | .script message => message
  | .assemblyDropped => "the owning assembly has been dropped"
  | .instanceDropped label => s!"the receiver of '{label}' has been dropped"

/-- The name of the kind of a fault, as scripts see it. -/
def kind : Fault → String
  | .lookup _ => "Variable"
  | .unknownClass _ => "Construction.UnknownClass"
  | .notCreatable .. => "Construction.NotCreatable"
  | .alreadyInitialized .. => "Construction.AlreadyInitialized"
  | .declaration .. => "Construction.Declaration"
  | .attachment .. => "Construction.Annotation"
  | .initializer .. => "Construction.Initializer"
  | .construction .. => "Construction.Constructor"
  | .unsupported .. => "Dispatch.Unsupported"
  | .returnType .. => "Dispatch.ReturnType"
  | .hookNotCallable .. => "Dispatch.NotCallable"
  | .hookFailed .. => "Dispatch.Call"
  | .hostException _ => "Native.Exception"
  | .argumentCount .. => "Native.ArgumentCount"
  | .receiverType _ => "Native.ReceiverType"
  | .unmarshalable .. => "Marshal.Unsupported"
  | .typeMismatch .. => "TypeMismatch"
  | .notCallable _ => "NotCallable"
  | .abstractCall _ => "AbstractCall"
  | .unresolvedReference _ => "UnresolvedNativeReference"
  | .stackOverflow _ => "StackOverflow"
  | .script _ => "Script"
  | .assemblyDropped => "AssemblyDropped"
  | .instanceDropped _ => "InstanceDropped"

/-- The classification of a fault as the outcome of a lookup; wrappers do not look inside. -/
def state : Fault → LookupState
  | .lookup fault => fault.state
  | .hostException _ | .argumentCount .. | .receiverType _ => .hostException
  | .unresolvedReference _ => .unresolvedReference
  | .typeMismatch .. | .unmarshalable .. => .typeMismatch
  | _ => .runtimeError

/-- The fault that a wrapping fault was brought about by. -/
def cause? : Fault → Option Fault
  | .declaration _ _ cause => some (.lookup cause)
  | .attachment _ _ cause | .initializer _ _ cause | .construction _ cause
  | .hookFailed _ cause => some cause
  | _ => none

/-- Whether a fault reports that the very name looked up is not declared. -/
def isMiss (name : String) : Fault → Bool
  | .lookup fault => fault.state = .notDeclared && fault.name = name
  | _ => false

end Fault

/-- Why a declaration was refused by the registry. -/
inductive Refusal where
  | duplicateClass (name : String)
  | duplicateMember (className member : String)
  | duplicateFunction (name : String)
  | duplicateHostType (host className : String)
  | notInheritable (className base : String) (mode : TypeMode)
  | unknownBase (className base : String)
  | circularInheritance (className : String)
  | notMarker (target className : String)
  | unknownMarker (target className : String)
  deriving DecidableEq, Repr

/-- The name of the kind of a refusal. -/
def Refusal.kind : Refusal → String
  | .duplicateClass _ => "Registration.DuplicateClass"
  | .duplicateMember .. => "Registration.DuplicateMember"
  | .duplicateFunction _ => "Registration.DuplicateFunction"
  | .duplicateHostType .. => "Registration.DuplicateHostType"
  | .notInheritable .. => "Registration.NotInheritable"
  | .unknownBase .. => "Registration.UnknownBase"
  | .circularInheritance _ => "Registration.CircularInheritance"
  | .notMarker .. => "Registration.NotAnAnnotation"
  | .unknownMarker .. => "Registration.UnknownAnnotation"

/-- The wording of a refusal. -/
def Refusal.message : Refusal → String
  | .duplicateClass name => s!"duplicate class: {name}"
  | .duplicateMember className member => s!"duplicate member '{member}' in class '{className}'"
  | .duplicateFunction name => s!"duplicate global function: {name}"
  | .duplicateHostType host className =>
      s!"host type '{host}' is already described by class '{className}'"
  | .notInheritable className base mode =>
      "class '" ++ className ++ "' cannot inherit from '" ++ base ++ "' (" ++ mode.text ++ ")"
  | .unknownBase className base => s!"class '{className}' extends unknown class '{base}'"
  | .circularInheritance className => s!"circular inheritance through '{className}'"
  | .notMarker target className =>
      s!"'{className}' used as an annotation on '{target}' is not an annotation class"
  | .unknownMarker target className => s!"unknown annotation '{className}' on '{target}'"

end ScriptObjects
