import ScriptObjects.Proofs.Answers

/-!
# Operations

What a host program can ask of an assembly and of the things made from it in a way that
runs bodies: requests of the machine, new instances, operators, meta-functions, values that
cross the host boundary, and expressions outside any body.  Each is given in terms of the
way requests are performed; over the machine of a session it is what the session does.
-/

namespace ScriptObjects

set_option autoImplicit false

open Exec

/-- An operation that runs bodies. -/
inductive Operation where
  /-- Calls a function value, reads or writes a variable, or constructs an instance. -/
  | ofRequest (request : Request)
  | create (className : String) (options : CreateOptions) (args : List Value)
  | wrap (host : HostId)
  | unmarshal (host : HostId) (type : ValueType)
  | dispatch (context : ContextId) (operator : Operator) (operands : List Value)
  | callHook (context : ContextId) (id : InstanceId) (key : MetaKey) (args : List Value)
  | eval (expr : Expr)

namespace Operation

/-- What an operation gives. -/
@[reducible] def Answer : Operation → Type
  | .ofRequest request => request.Answer
  | .create .. => InstanceId
  | .wrap _ | .unmarshal .. | .dispatch .. | .eval _ => Value
  | .callHook .. => Option Value

/-- The operation over a way to perform requests. -/
def run (perform : Perform) : (operation : Operation) → Exec operation.Answer
  | .ofRequest request => perform request
  | .create className options args => do
      requireAssembly
      createInstance perform className options args
  | .wrap host => do
      requireAssembly
      wrapHost perform host
  | .unmarshal host type => do
      requireAssembly
      fromHost perform type host
  | .dispatch context operator operands => do
      requireAssembly
      operate perform context operator operands
  | .callHook context id key args => do
      requireAssembly
      hook perform context id key args
  | .eval expr => evaluate perform none expr

example (className : String) (options : CreateOptions) (args : List Value) :
    run perform (.create className options args) = Session.create className options args := rfl

/-- Operations over two ways to perform requests agree where the nested requests do. -/
theorem run_tracks {regime : Regime (fun _ => True) (fun _ => True)} {perform other : Perform}
    (nested : perform.Tracks regime other) (fresh : ∀ world id, regime.fresh world id)
    (operation : Operation) :
    Tracks regime (operation.run perform) (operation.run other) := by
  cases operation with
  | ofRequest request =>
      exact fun world permits opens =>
        ⟨nested.leads _ _ request (fun _ _ _ _ => trivial) world permits opens,
          nested.agrees request world permits opens fun id _ _ _ => fresh world id⟩
  | create className options args =>
      exact .after requireAssembly_leads fun _ =>
        createInstance_tracks nested className options args
  | wrap host => exact .after requireAssembly_leads fun _ => wrapHost_tracks nested host
  | unmarshal host type =>
      exact .after requireAssembly_leads fun _ => fromHost_tracks nested type host
  | dispatch context operator operands =>
      exact .after requireAssembly_leads fun _ => operate_tracks nested context operator operands
  | callHook context id key args =>
      exact .after requireAssembly_leads fun _ => hook_tracks nested context id key args
  | eval expr => exact evaluate_tracks nested none expr fun _ _ => trivial

end Operation

end ScriptObjects
