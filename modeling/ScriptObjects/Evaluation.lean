import ScriptObjects.Dispatch
import ScriptObjects.Scope.Declare
import ScriptObjects.Snapshot

/-!
# Evaluating expressions

An expression is evaluated left to right, and the first fault ends it.  The forms
that speak of the running call see it as an invocation: its arguments, the instance
and level its body is bound to, and the context it runs on.  A body sees the local
members of its level, the whole chain of its instance and the roots; without an
instance it sees the roots alone.
-/

namespace ScriptObjects

set_option autoImplicit false

/-- The running call, as its body sees it. -/
structure Invocation where
  context : ContextId
  receiver : Option Receiver
  args : List Value

namespace Invocation

/-- What a body sees in a mode of lookup. -/
def scopeIn (invocation : Invocation) (mode : ScopeMode) : Exec Scope := do
  match invocation.receiver with
  | none => return rootScope .localOnly
  | some receiver =>
      return (← openScope? receiver.owner ⟨receiver.level, .localOnly, mode⟩).getD
        (rootScope .localOnly)

/-- Everything a body sees. -/
def scope (invocation : Invocation) : Exec Scope := invocation.scopeIn .all

/-- What a body sees below its level. -/
def baseScope (invocation : Invocation) : Exec Scope := invocation.scopeIn .base

end Invocation

/-- The running call; an expression that needs one is wrong outside a body. -/
def runningCall : Option Invocation → Exec Invocation
  | some invocation => return invocation
  | none => throw (.script "INPUT: not inside a body")

/-- The list that describes a fault to a script. -/
def describeFault (fault : Fault) : Exec Value :=
  Exec.newList [.bool false, .text fault.kind, .text fault.message, .text fault.state.text]

/-- The table key of a value. -/
def requireKey (value : Value) : Exec TableKey :=
  match TableKey.ofValue? value with
  | some key => return key
  | none => throw (.script "bad key")

/-- The table and key of an access by index; the table is checked first. -/
def requireEntry (target key : Value) : Exec (TableId × TableKey) := do
  match target with
  | .table id => return (id, ← requireKey key)
  | _ => throw (.script "not a table")

def requireObject : Value → Exec InstanceId
  | .object id => return id
  | _ => throw (.script "not an instance")

/-- A new host object of a type from its arguments. -/
def makeHost (type : HostType) (args : List Value) : Exec Value := do
  match HostObject.ofValues? type args with
  | some object => return .host (← Exec.newHost object)
  | none => throw (.script "INPUT: arguments of a host object")

/-- The value of a session name. -/
def sessionValue (name : String) : Exec Value := do
  match (← get).binding? name with
  | some (.value value) => return value
  | _ => throw (.script ("INPUT: no value named " ++ name))

mutual

/-- The value of an expression, in a body if there is a running call. -/
def evaluate (perform : Perform) (site : Option Invocation) : Expr → Exec Value
  | .null => return .null
  | .bool b => return .bool b
  | .int i => return .int i
  | .float f => return .float f
  | .text s => return .text s
  | .list items => do Exec.newList (← evaluateAll perform site items)
  | .table entries => do
      return .table (← Exec.newTable (← evaluateEntries perform site .empty entries))
  | .host type args => do makeHost type (← evaluateAll perform site args)
  | .var name => sessionValue name
  | .bind name value => do
      let value ← evaluate perform site value
      Exec.change (·.bind name (.value value))
      return value
  | .sequence steps => do return (← evaluateAll perform site steps).getLastD .null
  | .branch condition thenCase elseCase => do
      if (← evaluate perform site condition).isTruthy then evaluate perform site thenCase
      else evaluate perform site elseCase
  | .log value => do
      let value ← evaluate perform site value
      Exec.change fun world => world.record (world.snapshot value)
      return .null
  | .index target key => do
      let target ← evaluate perform site target
      let key ← evaluate perform site key
      let (id, key) ← requireEntry target key
      return ((← get).tables.get id).get key
  | .setIndex target key value => do
      let target ← evaluate perform site target
      let key ← evaluate perform site key
      let value ← evaluate perform site value
      let (id, key) ← requireEntry target key
      Exec.change (·.withTable id (·.set key value))
      return .null
  | .typeName value => do return .text (← typeNameOf (← evaluate perform site value))
  | .identical left right => do
      let left ← evaluate perform site left
      let right ← evaluate perform site right
      return .bool (left.identical right)
  | .member target access name => do
      let id ← requireObject (← evaluate perform site target)
      perform (.read (← memberScope id access) name)
  | .setMember target access name value => do
      let scope ← memberScope (← requireObject (← evaluate perform site target)) access
      perform (.assign scope name (← evaluate perform site value))
      return .null
  | .throw message => throw (.script message)
  | .raiseHost message => throw (.hostException message)
  | .raiseType expected actual => throw (.typeMismatch expected actual)
  | .raiseNotDeclared name => throw (.lookup (.notDeclared name))
  | .attempt value => do
      match ← Exec.attempt (evaluate perform site value) with
      | .ok result => Exec.newList [.bool true, result]
      | .error fault => describeFault fault
  | .arg position => do return (← runningCall site).args[position]?.getD .null
  | .args => do Exec.newList (← runningCall site).args
  | .argCount => do return .int (Int64.ofNat (← runningCall site).args.length)
  | .this => do
      return ((← runningCall site).receiver.map fun receiver =>
        Value.object receiver.owner).getD .null
  | .level => do
      return ((← runningCall site).receiver.map fun receiver =>
        Value.int (Int64.ofNat receiver.level)).getD .null
  | .trace => do
      let call ← runningCall site
      return .text ((← get).context call.context).trace
  | .depth => do
      let call ← runningCall site
      return .int (Int64.ofNat ((← get).context call.context).depth)
  | .get name => do perform (.read (← (← runningCall site).scope) name)
  | .set name value => do
      let call ← runningCall site
      let value ← evaluate perform site value
      perform (.assign (← call.scope) name value)
      return .null
  | .baseGet name => do perform (.read (← (← runningCall site).baseScope) name)
  | .baseSet name value => do
      let call ← runningCall site
      let value ← evaluate perform site value
      perform (.assign (← call.baseScope) name value)
      return .null
  | .declare name type => do
      declare (← (← runningCall site).scope) name (.unassigned type)
      return .null
  | .call name args => do
      let call ← runningCall site
      let args ← evaluateAll perform site args
      let target ← perform (.read (← call.scope) name)
      callValue perform call.context target args
  | .baseCall name args => do
      let call ← runningCall site
      let args ← evaluateAll perform site args
      let target ← perform (.read (← call.baseScope) name)
      callValue perform call.context target args
  | .create className args => do
      let call ← runningCall site
      let args ← evaluateAll perform site args
      let options := { CreateOptions.standard with context := some call.context }
      return .object (← createInstance perform className options args)
  | .operate operator args => do
      let call ← runningCall site
      operate perform call.context operator (← evaluateAll perform site args)

/-- The values of several expressions, in order. -/
def evaluateAll (perform : Perform) (site : Option Invocation) : List Expr → Exec (List Value)
  | [] => return []
  | expr :: rest => do
      let value ← evaluate perform site expr
      return value :: (← evaluateAll perform site rest)

/-- A table filled with further entries, in order. -/
def evaluateEntries (perform : Perform) (site : Option Invocation) (table : Table) :
    List (Expr × Expr) → Exec Table
  | [] => return table
  | (key, value) :: rest => do
      let key ← evaluate perform site key
      let value ← evaluate perform site value
      evaluateEntries perform site (table.set (← requireKey key) value) rest

end

end ScriptObjects
