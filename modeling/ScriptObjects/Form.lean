import ScriptObjects.Text.Hex

/-!
# Written forms

Declarations and expressions are written as trees of nulls, booleans, integers,
texts, lists and records.  Reading a form gives what it stands for, or says what is
wrong with it.
-/

namespace ScriptObjects

set_option autoImplicit false

/-- A written tree. -/
inductive Form where
  | null
  | bool (value : Bool)
  | int (value : Int)
  | text (value : String)
  | list (items : List Form)
  | record (fields : List (String × Form))

instance : Inhabited Form := ⟨.null⟩

/-- What is read from a form, or what is wrong with it. -/
abbrev Reading (α : Type) := Except String α

namespace Form

/-- A field of a record. -/
def field? (name : String) : Form → Option Form
  | .record fields => fields.lookup name
  | _ => none

/-- A field of a record; null counts as absent. -/
def present? (form : Form) (name : String) : Option Form :=
  match form.field? name with
  | some .null => none
  | other => other

def readText : Form → Reading String
  | .text s => return s
  | _ => throw "not a text"

def readNat : Form → Reading Nat
  | .int (.ofNat n) => return n
  | _ => throw "not a natural number"

def readBool : Form → Reading Bool
  | .bool b => return b
  | _ => throw "not a boolean"

def readList : Form → Reading (List Form)
  | .list items => return items
  | _ => throw "not a list"

/-- What a word of a closed vocabulary stands for. -/
def readWord {α : Type} (vocabulary : String → Option α) (form : Form) : Reading α := do
  let word ← form.readText
  match vocabulary word with
  | some meaning => return meaning
  | none => throw s!"unknown word {word}"

/-- Reads a field that has to be there. -/
def at_ {α : Type} (form : Form) (name : String) (read : Form → Reading α) : Reading α :=
  match form.field? name with
  | some value => read value
  | none => throw s!"no field {name}"

/-- Reads a field that may be absent. -/
def at? {α : Type} (form : Form) (name : String) (read : Form → Reading α) :
    Reading (Option α) :=
  (form.present? name).mapM read

/-- Reads a field that has a meaning where it is absent. -/
def atD {α : Type} (form : Form) (name : String) (absent : α) (read : Form → Reading α) :
    Reading α := do
  return (← form.at? name read).getD absent

/-- Reads the items of a field; an absent field has none. -/
def each {α : Type} (form : Form) (name : String) (read : Form → Reading α) :
    Reading (List α) := do
  (← form.atD name [] readList).mapM read

end Form

/-- The number a hexadecimal numeral stands for. -/
def Text.ofHexDigits (digits : List Char) : Nat :=
  digits.foldl (fun total c =>
    16 * total + if c.isDigit then c.toNat - 48 else c.toLower.toNat - 87) 0

end ScriptObjects
