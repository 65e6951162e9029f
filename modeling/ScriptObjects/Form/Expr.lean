import ScriptObjects.Expr
import ScriptObjects.Form
import ScriptObjects.Number.Binary64

/-!
# Reading types and expressions

A type is a word, or a record that names a class or a host type.  Nulls, booleans,
integers and texts are expressions themselves; every other expression is a list that
begins with the word for its form.
-/

namespace ScriptObjects

set_option autoImplicit false

namespace Form

def readAccess (form : Form) : Reading Access := form.readWord Access.ofText?

def readHostType (form : Form) : Reading HostType := form.readWord HostType.ofTag?

/-- Reads a declared type. -/
def readType : Form → Reading ValueType
  | .text "any" => return .any
  | .text "null" => return .null
  | .text "bool" => return .bool
  | .text "int" => return .int
  | .text "float" => return .float
  | .text "string" => return .text
  | .text "table" => return .table
  | .text "function" => return .function
  | form => do
      match ← form.at? "class" readText with
      | some name => return .object name
      | none => return .host (← form.at_ "native" readHostType)

/-- The float that its bits, or the word for no number, stand for. -/
def readFloat (form : Form) : Reading Float := do
  let text ← form.readText
  return if text = "nan" then Number.nan
    else Float.ofBits (Text.ofHexDigits (text.toList.drop 2)).toUInt64

mutual

/-- Reads an expression. -/
def readExpr : Form → Reading Expr
  | .null => return .null
  | .bool b => return .bool b
  | .int n => return .int (Int64.ofInt n)
  | .text s => return .text s
  | .record _ => throw "a record is no expression"
  | .list (.text word :: parts) =>
      match word, parts with
      | "float", [bits] => return .float (← bits.readFloat)
      | "list", items => return .list (← readExprs items)
      | "table", entries => return .table (← readEntries entries)
      | "native", type :: args => return .host (← type.readHostType) (← readExprs args)
      | "var", [name] => return .var (← name.readText)
      | "let", [name, value] => return .bind (← name.readText) (← readExpr value)
      | "do", steps => return .sequence (← readExprs steps)
      | "if", [c, x] => return .branch (← readExpr c) (← readExpr x) .null
      | "if", [c, x, y] => return .branch (← readExpr c) (← readExpr x) (← readExpr y)
      | "log", [value] => return .log (← readExpr value)
      | "index", [target, key] => return .index (← readExpr target) (← readExpr key)
      | "setindex", [target, key, value] =>
          return .setIndex (← readExpr target) (← readExpr key) (← readExpr value)
      | "typename", [value] => return .typeName (← readExpr value)
      | "identical", [left, right] => return .identical (← readExpr left) (← readExpr right)
      | "member", [target, access, name] =>
          return .member (← readExpr target) (← access.readAccess) (← name.readText)
      | "setmember", [target, access, name, value] =>
          return .setMember (← readExpr target) (← access.readAccess) (← name.readText)
            (← readExpr value)
      | "throw", [message] => return .throw (← message.readText)
      | "raise", [.text "native", message] => return .raiseHost (← message.readText)
      | "raise", [.text "type", expected, actual] =>
          return .raiseType (← expected.readText) (← actual.readText)
      | "raise", [.text "not_declared", name] => return .raiseNotDeclared (← name.readText)
      | "try", [value] => return .attempt (← readExpr value)
      | "arg", [position] => return .arg (← position.readNat)
      | "args", [] => return .args
      | "argc", [] => return .argCount
      | "this", [] => return .this
      | "level", [] => return .level
      | "trace", [] => return .trace
      | "depth", [] => return .depth
      | "get", [name] => return .get (← name.readText)
      | "set", [name, value] => return .set (← name.readText) (← readExpr value)
      | "bget", [name] => return .baseGet (← name.readText)
      | "bset", [name, value] => return .baseSet (← name.readText) (← readExpr value)
      | "decl", [name] => return .declare (← name.readText) .any
      | "decl", [name, type] => return .declare (← name.readText) (← type.readType)
      | "call", name :: args => return .call (← name.readText) (← readExprs args)
      | "callbase", name :: args => return .baseCall (← name.readText) (← readExprs args)
      | "new", name :: args => return .create (← name.readText) (← readExprs args)
      | "op", name :: args =>
          return .operate (← name.readWord Operator.ofName?) (← readExprs args)
      | word, _ => throw s!"unknown form {word}"
  | .list _ => throw "a list that begins with no word is no expression"

/-- Reads several expressions. -/
def readExprs : List Form → Reading (List Expr)
  | [] => return []
  | form :: rest => do return (← readExpr form) :: (← readExprs rest)

/-- Reads the entries of a table. -/
def readEntries : List Form → Reading (List (Expr × Expr))
  | [] => return []
  | .list [key, value] :: rest => do
      return (← readExpr key, ← readExpr value) :: (← readEntries rest)
  | _ :: _ => throw "not an entry of a table"

end

end Form

end ScriptObjects
