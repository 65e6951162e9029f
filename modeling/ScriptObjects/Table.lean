import ScriptObjects.Value

/-!
# Tables

A table is an associative array from keys to values.  The keys are booleans,
integers, floats and texts; a float that stands for an integer of the word range
is the same key as that integer.  The values under the keys 1, 2, 3 and so on, up
to the first gap, are the sequence part of the table.

Storing null removes a key.  A table built from a list keeps a slot for each of
its items, null or not.
-/

namespace ScriptObjects

set_option autoImplicit false

/-- What a table is indexed by. -/
inductive TableKey where
  | bool (value : Bool)
  | int (value : Int64)
  | float (value : Float)
  | text (value : String)
  deriving DecidableEq, Inhabited

namespace TableKey

/-- The key a value stands for; none when the value cannot index a table. -/
def ofValue? : Value → Option TableKey
  | .bool b => some (.bool b)
  | .int i => some (.int i)
  | .float f =>
      if f.isNaN then none
      else match Number.word? f with
        | some i => some (.int i)
        | none => some (.float f)
  | .text s => some (.text s)
  | _ => none

def toValue : TableKey → Value
  | .bool b => .bool b
  | .int i => .int i
  | .float f => .float f
  | .text s => .text s

/-- The key of the `n`-th item of a sequence, counted from one. -/
def position (n : Nat) : TableKey := .int (Int64.ofNat n)

/-- The rank of the kind of a key: booleans, integers, floats, texts. -/
def rank : TableKey → Nat
  | .bool _ => 0
  | .int _ => 1
  | .float _ => 2
  | .text _ => 3

/-- The order in which keys are listed: by kind, then ascending. -/
def precedes : TableKey → TableKey → Bool
  | .bool a, .bool b => !a && b
  | .int a, .int b => a < b
  | .float a, .float b => a < b
  | .text a, .text b => a < b
  | a, b => a.rank < b.rank

end TableKey

/-- An association of keys with values, each key at most once. -/
structure Table where
  entries : List (TableKey × Value)
  deriving Inhabited

namespace Table

def empty : Table := ⟨[]⟩

/-- The value stored under a key, if any. -/
def find? (table : Table) (key : TableKey) : Option Value :=
  table.entries.lookup key

/-- The value stored under a key, null where there is none. -/
def get (table : Table) (key : TableKey) : Value := (table.find? key).getD .null

def contains (table : Table) (key : TableKey) : Bool := (table.find? key).isSome

/-- The entries without a key. -/
def erase (table : Table) (key : TableKey) : Table :=
  ⟨table.entries.filter (·.1 ≠ key)⟩

/-- Replaces the value of a key in a list of entries, or adds the key at the end. -/
def put (key : TableKey) (value : Value) : List (TableKey × Value) → List (TableKey × Value)
  | [] => [(key, value)]
  | (k, v) :: rest => if k = key then (key, value) :: rest else (k, v) :: put key value rest

/-- Stores a value under a key; storing null removes the key. -/
def set (table : Table) (key : TableKey) (value : Value) : Table :=
  if value.isNull then table.erase key else ⟨put key value table.entries⟩

/-- The entries of a list from a position on. -/
def itemsFrom : Nat → List Value → List (TableKey × Value)
  | _, [] => []
  | position, value :: rest => (.position position, value) :: itemsFrom (position + 1) rest

/-- The table with the keys 1 to n; null items keep their slot. -/
def ofList (values : List Value) : Table := ⟨itemsFrom 1 values⟩

/-- How many consecutive positions are taken from a position on, at most `fuel` of them. -/
def runLength (table : Table) : Nat → Nat → Nat
  | 0, _ => 0
  | fuel + 1, position =>
      if table.contains (.position position) then runLength table fuel (position + 1) + 1 else 0

/-- The length of the sequence part. -/
def length (table : Table) : Nat := table.runLength table.entries.length 1

/-- The values of the sequence part, in order. -/
def sequence (table : Table) : List Value :=
  (List.range table.length).map fun i => table.get (.position (i + 1))

def isEmpty (table : Table) : Bool := table.entries.isEmpty

/-- Places an entry before the first one whose key does not come before it. -/
def insertSorted (entry : TableKey × Value) :
    List (TableKey × Value) → List (TableKey × Value)
  | [] => [entry]
  | head :: rest =>
      if head.1.precedes entry.1 then head :: insertSorted entry rest else entry :: head :: rest

/-- All entries, ordered by key. -/
def sorted (table : Table) : List (TableKey × Value) := table.entries.foldr insertSorted []

end Table

end ScriptObjects
