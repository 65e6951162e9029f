import ScriptObjects.Calling
import ScriptObjects.Construction

/-!
# The machine

One step answers a request in terms of a way to perform the requests nested in it.
The machine performs requests to a given nesting depth, and ends without an answer
where they nest deeper.
-/

namespace ScriptObjects

set_option autoImplicit false

/-- Answers one request, given a way to perform those nested in it. -/
def step (perform : Perform) : Perform
  | .call callable args context => callFunction perform callable args context
  | .read scope name => readScope perform name scope
  | .assign scope name value => assignScope perform name value scope
  | .construct id options args => constructInstance perform id options args

/-- Performs requests that nest at most so deep. -/
def performUpTo : Nat → Perform
  | 0, _ => Exec.exhaust
  | depth + 1, request => step (performUpTo depth) request

/-- How deeply requests may nest in a session. -/
def nestingLimit : Nat := 1000000

/-- Performs requests in a session. -/
def perform : Perform := performUpTo nestingLimit

end ScriptObjects
