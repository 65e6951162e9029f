import ScriptObjects.Definition
import ScriptObjects.Scope.Basic

/-!
# Instances and function values

An instance has one level for each class of its chain, the most derived first.  A
level has a store for each access tier and a reference to its host object.  A
function value is a declared function bound to a level of an instance, or to
nothing.
-/

namespace ScriptObjects

set_option autoImplicit false

/-- The part of an instance that belongs to one class of its chain. -/
structure Level where
  cls : ClassId
  reference : ReferenceId
  globals : StoreId
  internals : StoreId
  locals : StoreId
  deriving DecidableEq, Inhabited

/-- The store of a level at one tier. -/
def Level.declarations (level : Level) : Access → StoreId
  | .global => level.globals
  | .internal => level.internals
  | .localOnly => level.locals

/-- One of the composite scopes of an instance. -/
structure Viewpoint where
  level : Nat
  access : Access
  mode : ScopeMode
  deriving DecidableEq

/-- An object of a class. -/
structure Instance where
  cls : ClassId
  levels : List Level
  /-- The annotations attached during construction, in order. -/
  annotations : List InstanceId
  initialized : Bool
  /-- The host object of the instance as a whole. -/
  host : Option HostId
  alive : Bool
  /-- The composite scopes that were first opened while the assembly was there. -/
  opened : List Viewpoint
  deriving Inhabited

/-- A handle that resolves to the host object of one level, and then stays bound to it. -/
structure HostReference where
  className : String
  described : Option HostType
  owner : Option InstanceId
  bound : Option HostId
  deriving DecidableEq, Inhabited

/-- The instance and level a function runs against. -/
structure Receiver where
  owner : InstanceId
  level : Nat
  deriving DecidableEq, Inhabited

/-- A function value; without a function it stands in for a missing constructor. -/
structure Callable where
  label : String
  function : Option Function
  receiver : Option Receiver
  deriving Inhabited

namespace Callable

/-- The value of a declared function. -/
def ofFunction (function : Function) (receiver : Option Receiver) : Callable :=
  ⟨function.label, some function, receiver⟩

/-- The constructor, which does nothing, of a class without one. -/
def placeholder (className : String) : Callable :=
  ⟨className ++ "." ++ constructorName, none, none⟩

def kindName (callable : Callable) : String :=
  match callable.function with
  | some function => function.body.kindName
  | none => "placeholder"

def level? (callable : Callable) : Option Nat := callable.receiver.map Receiver.level

end Callable

end ScriptObjects
