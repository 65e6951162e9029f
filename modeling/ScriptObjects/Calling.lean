import ScriptObjects.Evaluation
import ScriptObjects.Marshal

/-!
# Calling functions

A call pushes a frame for its duration, runs the body of the function, and checks
the result against the return type.  A script body is evaluated; a host method runs
on the host object of its level; a host constructor gives its level a host object; a
constructor that passes through hands its arguments to the nearest constructor
below its level.
-/

namespace ScriptObjects

set_option autoImplicit false

/-- The frame of a call. -/
def Callable.frame (callable : Callable) : Frame :=
  match callable.function with
  | none => .synthetic callable.label
  | some function =>
      if function.isConstructor then
        .construction ((function.owner.map Owner.name).getD callable.label)
      else .function callable.label

/-- What a function value is bound to; a dead instance is a fault. -/
def liveReceiver (callable : Callable) : Exec (Option Receiver) := do
  match callable.receiver with
  | none => return none
  | some receiver =>
      unless ((← get).object receiver.owner).alive do
        throw (.instanceDropped callable.label)
      return some receiver

/-- What a function value is bound to, where it has to be bound. -/
def requireReceiver (callable : Callable) : Exec Receiver := do
  match ← liveReceiver callable with
  | some receiver => return receiver
  | none => throw (.unresolvedReference callable.label)

/-- Hands several arguments to the host, each at the type of its parameter. -/
def hostArguments : List (ValueType × Value) → Exec (List HostId)
  | [] => return []
  | (type, value) :: rest => do
      let host ← toHost value type
      return host :: (← hostArguments rest)

/-- Hands the arguments of a call to the host, once their number is right. -/
def marshalArguments (params : List ValueType) (args : List Value) : Exec (List HostId) := do
  checkArity params.length args.length
  hostArguments (params.zip args)

/-- The host reference of a level of an instance; past the end of the chain there is none. -/
def levelReference (receiver : Receiver) : Exec ReferenceId := do
  let world ← get
  match world.level? receiver.owner receiver.level with
  | some level => return level.reference
  | none => throw (.unresolvedReference (world.classOf receiver.owner).name)

/-- The host object of a level of an instance. -/
def levelHost (receiver : Receiver) : Exec HostId := do
  resolveReference (← levelReference receiver)

/-- Runs the nearest constructor below a level; there is nothing to do without one. -/
def forwardToBase (perform : Perform) (receiver : Receiver) (args : List Value)
    (context : ContextId) : Exec Value := do
  match (← get).level? receiver.owner (receiver.level + 1) with
  | none => return .null
  | some base =>
      match ← Exec.metaLink? base.cls .construct with
      | none => return .null
      | some link =>
          let level := ((← get).levelOf? receiver.owner link.owner.hash).getD (receiver.level + 1)
          match ← openScope? receiver.owner ⟨level, link.access, .declarations⟩ with
          | none => throw (.instanceDropped constructorName)
          | some scope =>
              let constructor ← requireFunction (← perform (.read scope constructorName))
              perform (.call constructor args context)

/-- Runs the body of a function. -/
def runBody (perform : Perform) (callable : Callable) (body : FunctionBody) (args : List Value)
    (context : ContextId) : Exec Value := do
  match body with
  | .script expr =>
      let receiver ← liveReceiver callable
      evaluate perform (some ⟨context, receiver, args⟩) expr
  | .hostMethod method =>
      let receiver ← requireReceiver callable
      let host ← levelHost receiver
      let args ← marshalArguments method.params args
      fromHost perform method.returns (← method.invoke host args)
  | .hostConstructor constructor =>
      let receiver ← requireReceiver callable
      let args ← marshalArguments constructor.params args
      bindHost receiver.owner receiver.level (← constructor.invoke args)
      return .null
  | .passThrough =>
      let receiver ← requireReceiver callable
      forwardToBase perform receiver args context
  | .abstract => throw (.abstractCall callable.label)

/-- Checks a result against the return type of a function, where results are checked. -/
def checkReturn (returns : ValueType) (result : Value) : Exec Value := do
  if !(← get).config.checkReturnTypes then return result
  match ← Exec.coerce? returns result with
  | some result => return result
  | none => throw (.typeMismatch returns.name (← typeNameOf result))

/-- Calls a function value on a context. -/
def callFunction (perform : Perform) (id : CallableId) (args : List Value) (context : ContextId) :
    Exec Value := do
  Exec.requireAssembly
  let callable := (← get).callables.get id
  Exec.withFrame context callable.frame do
    match callable.function with
    | none => return .null
    | some function =>
        let result ← runBody perform callable function.body args context
        checkReturn function.returns result

end ScriptObjects
