/-!
# Class modes and member roles

The mode of a class says whether scripts may create it and which classes may
extend it.  Annotation classes extend only annotation classes, and are extended
only by them.
-/

namespace ScriptObjects

set_option autoImplicit false

/-- How a class may be instantiated and extended. -/
inductive TypeMode where
  /-- Creatable and extensible. -/
  | ordinary
  /-- Creatable, not extensible. -/
  | sealed
  /-- Created only through a derived class. -/
  | abstract
  /-- One instance, not created by scripts. -/
  | singleton
  /-- An annotation class: attached to other declarations, created only along with them. -/
  | marker
  deriving DecidableEq, Repr, Inhabited

namespace TypeMode

/-- Whether scripts may create a class of this mode. -/
def creatable : TypeMode → Bool
  | .ordinary | .sealed => true
  | .abstract | .singleton | .marker => false

/-- Whether a class of the first mode may be the base of a class of the second. -/
def inheritableBy : TypeMode → TypeMode → Bool
  | .sealed, _ | .singleton, _ => false
  | .marker, derived => derived = .marker
  | .ordinary, derived | .abstract, derived => derived ≠ .marker

def all : List TypeMode := [.ordinary, .sealed, .abstract, .singleton, .marker]

def text : TypeMode → String
  | .ordinary => "default"
  | .sealed => "sealed"
  | .abstract => "abstract"
  | .singleton => "singleton"
  | .marker => "annotation"

/-- The mode a text names. -/
def ofText? (text : String) : Option TypeMode := all.find? (·.text = text)

end TypeMode

/-- The part a function plays in its hierarchy. -/
inductive MemberRole where
  | ordinary
  /-- Replaces a member of a base. -/
  | override
  /-- Has no body; a derived class supplies one. -/
  | abstract
  deriving DecidableEq, Repr, Inhabited

def MemberRole.text : MemberRole → String
  | .ordinary => "default"
  | .override => "override"
  | .abstract => "abstract"

end ScriptObjects
