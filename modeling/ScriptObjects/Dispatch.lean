import ScriptObjects.Allocation
import ScriptObjects.Number.Layout

/-!
# Dispatch to meta-functions

An operator first asks the class of an instance operand for its meta-function, the
left operand before the right; where no class answers, the operator has a meaning
for primitives, texts and tables.  A meta-function is fetched from the declarations
of the level that declares it, so that it runs against that level.
-/

namespace ScriptObjects

set_option autoImplicit false

/-- The type of a value at this moment, as a text. -/
def typeNameOf (value : Value) : Exec String := Exec.ask fun world => world.typeName value

/-- The function that a value is; nothing else can be called as one. -/
def requireFunction : Value → Exec CallableId
  | .function callable => return callable
  | other => do throw (.notCallable (← typeNameOf other))

/-- The text of an integer. -/
def wordText (i : Int64) : String := toString i.toInt

/-- Whether a value is of the kind that a dispatch site requires. -/
def ExpectedReturn.admits : ExpectedReturn → Value → Bool
  | .any, _ | .bool, .bool _ | .int, .int _ | .text, .text _ => true
  | _, _ => false

/-- Checks the result of a meta-function. -/
def castReturn (key : MetaKey) (value : Value) : Exec Value := do
  if key.expectedReturn.admits value then return value
  throw (.returnType key key.expectedReturn.name (← typeNameOf value))

/-- Calls the meta-function of an instance under a key; none when its class has none. -/
def hook (perform : Perform) (context : ContextId) (id : InstanceId) (key : MetaKey)
    (args : List Value) : Exec (Option Value) := do
  match ← Exec.metaLink? ((← get).object id).cls key with
  | none => return none
  | some link =>
      let level := ((← get).levelOf? id link.owner.hash).getD 0
      match ← openScope? id ⟨level, link.access, .declarations⟩ with
      | none => throw (.instanceDropped key.methodName)
      | some scope =>
          match ← perform (.read scope key.methodName) with
          | .function callable =>
              let result ← Exec.wrapFault (.hookFailed key) (perform (.call callable args context))
              return some (← castReturn key result)
          | other => throw (.hookNotCallable key (← typeNameOf other))

/-- Asks both operands for a meta-function, the left one first. -/
def binaryHook (perform : Perform) (context : ContextId) (key : MetaKey) (left right : Value) :
    Exec (Option Value) := do
  let fromLeft ← match left with
    | .object id => hook perform context id key [right]
    | _ => pure none
  match fromLeft, right with
  | some result, _ => return some result
  | none, .object id => hook perform context id key [left]
  | none, _ => return none

/-- Asks the only operand for a meta-function. -/
def unaryHook (perform : Perform) (context : ContextId) (key : MetaKey) (operand : Value) :
    Exec (Option Value) := do
  match operand with
  | .object id => hook perform context id key []
  | _ => return none

/-- Routes a value through the hooks of annotations under a key: each hook sees the name of the
variable and the result of the one before it, and annotations without the hook are skipped. -/
def intercept (perform : Perform) (key : MetaKey) (name : String) (value : Value) :
    List InstanceId → Exec Value
  | [] => return value
  | annotation :: rest => do
      match ← hook perform World.ownContext annotation key [.text name, value] with
      | some result => intercept perform key name result rest
      | none => intercept perform key name value rest

/-- The fault of an operator that an operand does not support. -/
def unsupportedOperand {α : Type} (key : MetaKey) (operand : Value) : Exec α := do
  throw (.unsupported key (← typeNameOf operand))

/-! ## Arithmetic -/

/-- The signed word of an integer, if it is one. -/
def checkedWord? (n : Int) : Option Int64 :=
  if Int64.minValue.toInt ≤ n ∧ n ≤ Int64.maxValue.toInt then some (Int64.ofInt n) else none

/-- The outcome of an operator on integers. -/
def wordResult (n : Int) : Except Fault Int64 :=
  match checkedWord? n with
  | some word => .ok word
  | none => .error (.script "integer overflow")

/-- An arithmetic operator on integers. -/
def wordArithmetic (key : MetaKey) (a b : Int64) : Except Fault Int64 :=
  match key with
  | .add => wordResult (a.toInt + b.toInt)
  | .subtract => wordResult (a.toInt - b.toInt)
  | .multiply => wordResult (a.toInt * b.toInt)
  | .divide =>
      if b = 0 then .error (.script "division by zero") else wordResult (a.toInt.tdiv b.toInt)
  | _ =>
      if b = 0 then .error (.script "division by zero")
      else if b = -1 ∧ a = Int64.minValue then .error (.script "integer overflow")
      else wordResult (a.toInt % b.toInt)

/-- An arithmetic operator on floats. -/
def floatArithmetic (key : MetaKey) (a b : Float) : Float :=
  match key with
  | .add => a + b
  | .subtract => a - b
  | .multiply => a * b
  | .divide => a / b
  | _ => Number.euclideanRemainder a b

/-- A result or a fault as a run. -/
def Exec.ofExcept {α : Type} : Except Fault α → Exec α
  | .ok result => return result
  | .error fault => throw fault

/-- The meaning of an arithmetic operator where no class answers. -/
def primitiveArithmetic (key : MetaKey) (left right : Value) : Exec Value := do
  match left, right with
  | .int a, .int b => return .int (← Exec.ofExcept (wordArithmetic key a b))
  | _, _ =>
      match left.asFloat?, right.asFloat? with
      | some a, some b => return .float (floatArithmetic key a b)
      | none, _ => unsupportedOperand key left
      | some _, none => unsupportedOperand key right

def arithmetic (perform : Perform) (context : ContextId) (key : MetaKey) (left right : Value) :
    Exec Value := do
  match ← binaryHook perform context key left right with
  | some result => return result
  | none => primitiveArithmetic key left right

def negate (perform : Perform) (context : ContextId) (operand : Value) : Exec Value := do
  match ← unaryHook perform context .negate operand with
  | some result => return result
  | none =>
      match operand with
      | .int i => return .int (← Exec.ofExcept (wordResult (-i.toInt)))
      | .float f => return .float (-f)
      | other => unsupportedOperand .negate other

/-! ## Texts and lengths -/

/-- The text of a value where no class answers. -/
def primitiveText (world : World) : Value → String
  | .null => "null"
  | .bool true => "true"
  | .bool false => "false"
  | .int i => wordText i
  | .float f => Number.Layout.plain.text f
  | .text s => s
  | .table _ => "table"
  | .function id => "function<" ++ (world.callables.get id).label ++ ">"
  | .object id =>
      "class#" ++ toString (World.instanceNumber id) ++ "<" ++ (world.classOf id).name ++ ">"
  | .host id => "native<" ++ (world.hosts.get id).type.fullName ++ ">"

def stringify (perform : Perform) (context : ContextId) (value : Value) : Exec String := do
  match ← unaryHook perform context .toText value with
  | some result => return result.asText?.getD ""
  | none => return primitiveText (← get) value

/-- Whether a value has a text that may be joined to another. -/
def joinable : Value → Bool
  | .table _ | .function _ | .host _ => false
  | _ => true

def concat (perform : Perform) (context : ContextId) (left right : Value) : Exec Value := do
  match ← binaryHook perform context .concat left right with
  | some result => return result
  | none =>
      unless joinable left do
        unsupportedOperand .concat left
      unless joinable right do
        unsupportedOperand .concat right
      let first ← stringify perform context left
      let second ← stringify perform context right
      return .text (first ++ second)

/-- The number of characters of a text, and of items of the sequence part of a table. -/
def lengthOf (perform : Perform) (context : ContextId) (value : Value) : Exec Int64 := do
  match ← unaryHook perform context .length value with
  | some result => return result.asInt?.getD 0
  | none =>
      match value with
      | .text s => return Int64.ofNat s.length
      | .table id => return Int64.ofNat ((← get).tables.get id).length
      | other => unsupportedOperand .length other

/-! ## Comparison -/

def equals (perform : Perform) (context : ContextId) (left right : Value) : Exec Bool := do
  match ← binaryHook perform context .equals left right with
  | some result => return result.isTruthy
  | none => return left.identical right

/-- The order of two texts by their code points. -/
def textOrder (a b : String) : Ordering := if a < b then .lt else if a = b then .eq else .gt

/-- The order of two signed words. -/
def wordOrder (a b : Int64) : Ordering := if a < b then .lt else if a = b then .eq else .gt

/-- The order of two values where no class answers. -/
def primitiveOrder (key : MetaKey) (left right : Value) : Exec Ordering := do
  match left, right with
  | .int a, .int b => return wordOrder a b
  | .text a, .text b => return textOrder a b
  | _, _ =>
      match left.asFloat?, right.asFloat? with
      | some a, some b =>
          match Number.compare? a b with
          | some order => return order
          | none => throw (.script "comparison with NaN")
      | none, _ => unsupportedOperand key left
      | some _, none => unsupportedOperand key right

def less (perform : Perform) (context : ContextId) (left right : Value) : Exec Bool := do
  match ← binaryHook perform context .less left right with
  | some result => return result.isTruthy
  | none => return (← primitiveOrder .less left right).isLT

def lessEqual (perform : Perform) (context : ContextId) (left right : Value) : Exec Bool := do
  match ← binaryHook perform context .lessEqual left right with
  | some result => return result.isTruthy
  | none => return (← primitiveOrder .lessEqual left right).isLE

/-! ## Iteration and calls -/

/-- The items a value iterates over. -/
def iterate (perform : Perform) (context : ContextId) (value : Value) : Exec (List Value) := do
  match ← unaryHook perform context .iterate value with
  | some (.table id) => return ((← get).tables.get id).sequence
  | some other => throw (.returnType .iterate "table" (← typeNameOf other))
  | none =>
      match value with
      | .table id => return ((← get).tables.get id).sequence
      | other => unsupportedOperand .iterate other

/-- Calls a function value, or an instance whose class answers to calls. -/
def callValue (perform : Perform) (context : ContextId) (target : Value) (args : List Value) :
    Exec Value := do
  match target with
  | .function callable => perform (.call callable args context)
  | .object id =>
      match ← hook perform context id .call args with
      | some result => return result
      | none => throw (.notCallable (← typeNameOf target))
  | other => throw (.notCallable (← typeNameOf other))

/-- Applies an operator to its operands; missing operands are null. -/
def operate (perform : Perform) (context : ContextId) (operator : Operator)
    (operands : List Value) : Exec Value := do
  let left := operands.headD .null
  let right := operands.tail.headD .null
  match operator with
  | .add => arithmetic perform context .add left right
  | .subtract => arithmetic perform context .subtract left right
  | .multiply => arithmetic perform context .multiply left right
  | .divide => arithmetic perform context .divide left right
  | .remainder => arithmetic perform context .remainder left right
  | .negate => negate perform context left
  | .concat => concat perform context left right
  | .stringify => return .text (← stringify perform context left)
  | .length => return .int (← lengthOf perform context left)
  | .equals => return .bool (← equals perform context left right)
  | .less => return .bool (← less perform context left right)
  | .lessEqual => return .bool (← lessEqual perform context left right)
  | .iterate => Exec.newList (← iterate perform context left)
  | .call => callValue perform context left operands.tail

end ScriptObjects
