import ScriptObjects.Access
import ScriptObjects.Host.HostType
import ScriptObjects.ValueType

/-!
# Expressions

The language in which the bodies of functions, the initializers of fields and the
arguments of annotations are written.  The forms of the first group mean the same
anywhere; those of the second speak of the running call and need one.
-/

namespace ScriptObjects

set_option autoImplicit false

/-- The operators of the language. -/
inductive Operator where
  | add
  | subtract
  | multiply
  | divide
  | remainder
  | negate
  | concat
  | stringify
  | length
  | equals
  | less
  | lessEqual
  | iterate
  | call
  deriving DecidableEq, Repr, Inhabited

namespace Operator

def all : List Operator :=
  [.add, .subtract, .multiply, .divide, .remainder, .negate, .concat, .stringify, .length,
   .equals, .less, .lessEqual, .iterate, .call]

def name : Operator → String
  | .add => "add"
  | .subtract => "sub"
  | .multiply => "mul"
  | .divide => "div"
  | .remainder => "modulo"
  | .negate => "negate"
  | .concat => "concat"
  | .stringify => "stringify"
  | .length => "length"
  | .equals => "equals"
  | .less => "less"
  | .lessEqual => "less_equal"
  | .iterate => "iterate"
  | .call => "call"

def ofName? (name : String) : Option Operator := all.find? (·.name = name)

end Operator

/-- An expression. -/
inductive Expr where
  | null
  | bool (value : Bool)
  | int (value : Int64)
  | float (value : Float)
  | text (value : String)
  /-- A table with the items under the keys 1 to n. -/
  | list (items : List Expr)
  /-- A table filled entry by entry. -/
  | table (entries : List (Expr × Expr))
  /-- A new host object. -/
  | host (type : HostType) (args : List Expr)
  /-- The session value saved under a name. -/
  | var (name : String)
  /-- Saves a session value. -/
  | bind (name : String) (value : Expr)
  /-- The value of the last of several expressions. -/
  | sequence (steps : List Expr)
  | branch (condition thenCase elseCase : Expr)
  /-- Records a value in the log. -/
  | log (value : Expr)
  | index (target key : Expr)
  | setIndex (target key value : Expr)
  | typeName (value : Expr)
  | identical (left right : Expr)
  /-- Reads a member of an instance from outside. -/
  | member (target : Expr) (access : Access) (name : String)
  /-- Writes a member of an instance from outside. -/
  | setMember (target : Expr) (access : Access) (name : String) (value : Expr)
  | throw (message : String)
  | raiseHost (message : String)
  | raiseType (expected actual : String)
  | raiseNotDeclared (name : String)
  /-- Turns a fault into a list that describes it. -/
  | attempt (value : Expr)
  /-- An argument of the running call. -/
  | arg (position : Nat)
  | args
  | argCount
  | this
  | level
  | trace
  | depth
  | get (name : String)
  | set (name : String) (value : Expr)
  /-- Reads below the level of the running body. -/
  | baseGet (name : String)
  /-- Writes below the level of the running body. -/
  | baseSet (name : String) (value : Expr)
  | declare (name : String) (type : ValueType)
  | call (name : String) (args : List Expr)
  /-- Calls what a name means below the level of the running body. -/
  | baseCall (name : String) (args : List Expr)
  | create (className : String) (args : List Expr)
  | operate (operator : Operator) (args : List Expr)

instance : Inhabited Expr := ⟨.null⟩

end ScriptObjects
