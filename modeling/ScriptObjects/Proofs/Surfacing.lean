import ScriptObjects.Proofs.ActivityAccounts
import ScriptObjects.Proofs.Refinement

/-!
# What bodies raise surfaces

No fault of a body is lost on its way out, and none is replaced by another.  However deeply bodies,
constructions and lookups are nested, a fault that is not caught by an expression ends everything
that is under way, and the operation that was asked for ends in a fault whose chain of causes leads
back to it.  The registry need not have been validated for that.

The danger is a body that reports as not declared the very name that a composite scope is probing
for.  The account of a lookup rules it out: what is raised within the lookup is wrapped before the
composite sees it.
-/

namespace ScriptObjects

set_option autoImplicit false

/-! ## The machine -/

/-- The account of one step of the machine. -/
def stepAccount : (request : Request) → Account request.allows fun perform => step perform request
  | .call callable args context => callFunctionAccount callable args context
  | .read scope name => readScopeAccount name scope
  | .assign scope name value => assignScopeAccount name value scope
  | .construct id options args => constructInstanceAccount id options args

/-- The events of a request that nests at most so deep. -/
def recordUpTo : Nat → Record
  | 0, _, _ => []
  | depth + 1, request, world =>
      (stepAccount request).events (performUpTo depth) (recordUpTo depth) world

theorem performUpTo_recorded (budget : Nat) :
    (performUpTo budget).Recorded (recordUpTo budget) := by
  induction budget with
  | zero => exact fun request world => .of_calm .nil _
  | succ depth ih => exact fun request world => (stepAccount request).honest ih world

/-! ## Operations -/

namespace Operation

def account : (operation : Operation) →
    Account (fun _ => True) fun perform => operation.run perform
  | .ofRequest request => .anyway (.request request)
  | .create className options args =>
      .after fun _ => .anyway (createInstanceAccount className options args)
  | .wrap host => .after fun _ => .anyway (wrapHostAccount host)
  | .unmarshal host type => .after fun _ => .anyway (fromHostAccount type host)
  | .dispatch context operator operands =>
      .after fun _ => operateAccount context operator operands
  | .callHook context id key args => .after fun _ => .anyway (hookAccount context id key args)
  | .eval expr => evaluateAccount none expr

/-- The bodies that an operation begins in a state, and the faults they raise. -/
def events (operation : Operation) (budget : Nat) (world : World) : List Event :=
  operation.account.events (performUpTo budget) (recordUpTo budget) world

theorem events_honest (operation : Operation) (budget : Nat) (world : World) :
    Honest (fun _ => True) (operation.events budget world)
      (operation.run (performUpTo budget) world).1 :=
  operation.account.honest (performUpTo_recorded budget) world

end Operation

theorem Halting.begins_nothing {before after : List Event} {body : Body} {fault : Fault}
    (halting : Halting (before ++ .raises body fault :: after)) (other : Body) :
    .begins other ∉ after := by
  intro begins
  have halted := (List.pairwise_cons.mp (List.pairwise_append.mp halting).2.1).1
  exact halted _ begins body fault other rfl rfl

theorem Fault.getLast?_chain {last fault : Fault} (leads : fault.chain <:+ last.chain)
    (causeless : fault.cause? = none) : last.chain.getLast? = some fault := by
  obtain ⟨before, whole⟩ := leads
  rw [← whole, Fault.chain_of_causeless causeless, List.getLast?_concat]

/-- Once a body has raised a fault that no expression catches, no other body begins, and the
operation ends in a fault.  The chain of causes of that fault ends in the one of the raised fault,
and so in the raised fault itself unless it has a cause of its own. -/
theorem raised_fault_surfaces (operation : Operation) (budget : Nat) (world : World)
    {before after : List Event} {body : Body} {fault : Fault}
    (raises : operation.events budget world = before ++ .raises body fault :: after) :
    (∀ other, .begins other ∉ after) ∧
    ∃ last, (operation.run (performUpTo budget) world).1 = .failed last ∧
      fault.chain <:+ last.chain ∧
      (fault.cause? = none → last.chain.getLast? = some fault) := by
  obtain ⟨halting, surfaces⟩ := operation.events_honest budget world
  rw [raises] at halting surfaces
  obtain ⟨last, ends, _, leads⟩ := surfaces body fault
    (List.mem_append_right _ List.mem_cons_self)
  exact ⟨halting.begins_nothing, last, ends, leads, Fault.getLast?_chain leads⟩

/-! ## A fault that looks like a missing name -/

namespace World

/-- A class with an annotated field that its length depends on; reading the field runs a hook that
reports the very name as not declared. -/
def meteredSpecs : List ClassSpec :=
  [⟨"Denied", .marker, none, [], [bareFunction "onGet" (.raiseNotDeclared "x")], [], none, none⟩,
   bareClass "Meter" none
     [⟨"x", .global, .any, .script (some (.int 1)), [⟨"Denied", []⟩], none⟩]
     [bareFunction "opLength" (.get "x")]]

/-- The length of an instance of the class is asked for. -/
def askLength : Operation := .dispatch ownContext .length [.object ⟨0⟩]

/-- The hook runs within the lookup that is made for the body of the meta-function. -/
theorem raised_fault_surfaces_metered :
    askLength.events 9 (sampleAfter meteredSpecs ⟨1⟩) =
      [.begins (.function "Meter.opLength"), .begins (.function "Denied.onGet")] ++
        .raises (.function "Denied.onGet") (.lookup (.notDeclared "x")) ::
        [.raises (.function "Meter.opLength") (.hookFailed .onRead (.lookup (.notDeclared "x")))] ∧
    ∃ last, (askLength.run (performUpTo 9) (sampleAfter meteredSpecs ⟨1⟩)).1 = .failed last ∧
      last.chain.getLast? = some (.lookup (.notDeclared "x")) := by
  have raises : askLength.events 9 (sampleAfter meteredSpecs ⟨1⟩) =
      [.begins (.function "Meter.opLength"), .begins (.function "Denied.onGet")] ++
        .raises (.function "Denied.onGet") (.lookup (.notDeclared "x")) ::
        [.raises (.function "Meter.opLength") (.hookFailed .onRead (.lookup (.notDeclared "x")))] :=
    by decide +kernel
  obtain ⟨_, last, ends, _, whole⟩ :=
    raised_fault_surfaces askLength 9 (sampleAfter meteredSpecs ⟨1⟩) raises
  exact ⟨raises, last, ends, whole rfl⟩

end World

end ScriptObjects
