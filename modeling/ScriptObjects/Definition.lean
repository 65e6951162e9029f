import ScriptObjects.Access
import ScriptObjects.Expr
import ScriptObjects.Hash.TypeHash
import ScriptObjects.Heap
import ScriptObjects.Host.Routine
import ScriptObjects.MetaKey
import ScriptObjects.TypeMode

/-!
# Declarations of classes and functions

A member is declared with its annotations.  What a use of an annotation refers to
is a parameter: before registration it is the name of the annotation class,
afterwards a handle to a class reference that remembers the class once it has been
found.  A class that was registered also carries its identity, the owner of each of
its members, and the table of its meta-functions once that has been asked for.
-/

namespace ScriptObjects

set_option autoImplicit false

/-- The name of the member that constructs instances. -/
def constructorName : String := "constructor"

/-- The class a member was declared on. -/
structure Owner where
  name : String
  hash : TypeHash
  deriving DecidableEq, Inhabited

def Owner.ofClass (name : String) : Owner := ⟨name, TypeHash.ofName name⟩

/-- An annotation on a class, field or function, with its unevaluated arguments. -/
structure AnnotationUse (ρ : Type) where
  cls : ρ
  args : List Expr

/-- What runs when a function is called. -/
inductive FunctionBody where
  | script (body : Expr)
  | hostMethod (method : HostMethod)
  | hostConstructor (constructor : HostConstructor)
  /-- Hands its arguments to the nearest constructor below. -/
  | passThrough
  /-- No body; a derived class supplies one. -/
  | abstract

instance : Inhabited FunctionBody := ⟨.abstract⟩

def FunctionBody.kindName : FunctionBody → String
  | .script _ => "script"
  | .hostMethod _ => "native method"
  | .hostConstructor _ => "native constructor"
  | .passThrough => "pass-through"
  | .abstract => "abstract"

/-- A function declared on a class or on the assembly. -/
structure FunctionDecl (ρ : Type) where
  name : String
  access : Access
  role : MemberRole
  returns : ValueType
  body : FunctionBody
  annotations : List (AnnotationUse ρ)
  owner : Option Owner

namespace FunctionDecl

variable {ρ : Type}

def isConstructor (function : FunctionDecl ρ) : Bool := function.name = constructorName

/-- The owner and the name of a member, or the name alone. -/
def label (function : FunctionDecl ρ) : String :=
  match function.owner with
  | some owner => owner.name ++ "." ++ function.name
  | none => function.name

/-- The constructor of a class that extends another and declares none of its own. -/
def passThrough : FunctionDecl ρ where
  name := constructorName
  access := .global
  role := .ordinary
  returns := .any
  body := .passThrough
  annotations := []
  owner := none

instance : Inhabited (FunctionDecl ρ) := ⟨passThrough⟩

end FunctionDecl

/-- Where the value of a field is kept. -/
inductive FieldStorage where
  /-- In a slot of its scope, perhaps with an initializer. -/
  | script (initializer : Option Expr)
  /-- In the host object of its level. -/
  | host (accessor : Accessor)

/-- A field declared on a class. -/
structure FieldDecl (ρ : Type) where
  name : String
  access : Access
  type : ValueType
  storage : FieldStorage
  annotations : List (AnnotationUse ρ)
  owner : Option Owner

def FieldDecl.isHost {ρ : Type} (field : FieldDecl ρ) : Bool :=
  match field.storage with
  | .host _ => true
  | .script _ => false

/-- A class as it is handed to the registry. -/
structure ClassSpec where
  name : String
  mode : TypeMode
  base : Option String
  fields : List (FieldDecl String)
  functions : List (FunctionDecl String)
  annotations : List (AnnotationUse String)
  described : Option HostType
  descriptor : Option HostType

abbrev Function := FunctionDecl ClassRefId
abbrev Field := FieldDecl ClassRefId

/-- A reference to a class by name, which remembers the class once it was found. -/
structure ClassRef where
  name : String
  target : Option ClassId
  deriving DecidableEq, Inhabited

def ClassRef.isResolved (reference : ClassRef) : Bool := reference.target.isSome

/-- A meta-function of a class: who declares it, and how it is fetched. -/
structure MetaLink where
  key : MetaKey
  owner : Owner
  /-- The tier of the declarations the function is fetched from. -/
  access : Access
  function : Function

/-- The meta-functions a class answers to, in catalogue order. -/
structure MetaTable where
  links : List MetaLink

def MetaTable.get? (table : MetaTable) (key : MetaKey) : Option MetaLink :=
  table.links.find? (·.key = key)

/-- A registered class. -/
structure ClassDef where
  name : String
  hash : TypeHash
  mode : TypeMode
  base : Option ClassRefId
  fields : List Field
  functions : List Function
  annotations : List (AnnotationUse ClassRefId)
  described : Option HostType
  descriptor : Option HostType
  /-- The meta-functions, from the first time they were asked for. -/
  metaTable : Option MetaTable

namespace ClassDef

instance : Inhabited ClassDef :=
  ⟨⟨"", TypeHash.empty, .ordinary, none, [], [], [], none, none, none⟩⟩

/-- A function declared on the class itself. -/
def function? (cls : ClassDef) (name : String) : Option Function :=
  cls.functions.find? (·.name = name)

/-- A field declared on the class itself. -/
def field? (cls : ClassDef) (name : String) : Option Field :=
  cls.fields.find? (·.name = name)

end ClassDef

end ScriptObjects
