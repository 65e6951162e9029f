import ScriptObjects.Proofs.Requests

/-!
# Steps that end

A run ends when it gives a result or a fault, and is not cut off for the want of a budget.
Everything a run does between the requests nested in it ends, from every state: only a
request can use up a budget.
-/

namespace ScriptObjects

set_option autoImplicit false

namespace Exec

variable {α β : Type}

/-- From every state a run gives a result or a fault. -/
def Ends (run : Exec α) : Prop := ∀ world, (run world).1 ≠ .exhausted

namespace Ends

theorem pure (result : α) : Ends (pure result : Exec α) := fun _ => nofun

theorem throw (fault : Fault) : Ends (throw fault : Exec α) := fun _ => nofun

theorem ask (question : World → α) : Ends (Exec.ask question) := fun _ => nofun

theorem change (update : World → World) : Ends (Exec.change update) := fun _ => nofun

theorem bind {run : Exec α} {next : α → Exec β} (first : Ends run)
    (second : ∀ result, Ends (next result)) : Ends (run >>= next) := by
  intro world
  have ends := first world
  rw [bind_apply]
  rcases ended : run world with ⟨outcome, after⟩
  rw [ended] at ends
  cases outcome with
  | done result => exact second result after
  | failed fault => nofun
  | exhausted => exact absurd rfl ends

theorem of_get {next : World → Exec β} (second : ∀ seen, Ends (next seen)) :
    Ends ((get : Exec World) >>= next) :=
  fun world => second world world

end Ends

/-! ## Single steps -/

theorem requireAssembly_ends : Ends requireAssembly := by
  refine .of_get fun seen => ?_
  split
  · exact .pure _
  · exact .throw _

theorem newTable_ends (table : Table) : Ends (newTable table) := fun _ => nofun

theorem newList_ends (items : List Value) : Ends (newList items) :=
  .bind (newTable_ends _) fun _ => .pure _

theorem newHost_ends (object : HostObject) : Ends (newHost object) := fun _ => nofun

theorem newCallable_ends (callable : Callable) : Ends (newCallable callable) := fun _ => nofun

theorem newConfiguredContext_ends : Ends newConfiguredContext := fun _ => nofun

theorem coerce?_ends (type : ValueType) (value : Value) : Ends (coerce? type value) := by
  intro world
  rw [coerce?_apply]
  nofun

theorem metaLink?_ends (id : ClassId) (key : MetaKey) : Ends (metaLink? id key) := fun _ => nofun

theorem resolveRef?_ends (reference : ClassRefId) : Ends (resolveRef? reference) := fun _ => nofun

end Exec

open Exec

theorem typeNameOf_ends (value : Value) : Ends (typeNameOf value) := .ask _

/-! ## Host routines -/

theorem Accessor.read_ends (accessor : Accessor) (host : HostId) : Ends (accessor.read host) := by
  refine .bind (.ask _) fun object => ?_
  split
  all_goals
    first
    | exact newHost_ends _
    | exact .throw _
    | exact .pure _
    | exact .bind (newList_ends _) fun _ => newHost_ends _

theorem Accessor.write_ends (accessor : Accessor) (host value : HostId) :
    Ends (accessor.write host value) := by
  unfold Accessor.write
  split
  · refine .bind (.ask _) fun given => .bind (.ask _) fun object => ?_
    split
    · exact .change _
    · exact .throw _
    · exact .throw _
  · refine .bind (.ask _) fun given => .bind (.ask _) fun object => ?_
    split
    · exact .change _
    · exact .throw _
    · exact .throw _
  · exact .throw _
  · exact .throw _

theorem checkArity_ends (expected actual : Nat) : Ends (checkArity expected actual) := by
  unfold checkArity
  split
  · exact .pure _
  · exact .throw _

theorem MethodRoutine.run_ends (routine : MethodRoutine) (receiver : HostId) (args : List HostId) :
    Ends (routine.run receiver args) := by
  refine .bind (.ask _) fun object => ?_
  split
  case h_2 | h_5 =>
    exact .bind (.ask _) fun _ => .bind (.change _) fun _ => newHost_ends _
  case h_7 =>
    cases args with
    | nil => exact newHost_ends _
    | cons first rest => exact .pure _
  case h_9 => exact .bind (.ask _) fun _ => newHost_ends _
  all_goals
    first
    | exact newHost_ends _
    | exact .throw _
    | exact .pure _

theorem HostMethod.invoke_ends (method : HostMethod) (receiver : HostId) (args : List HostId) :
    Ends (method.invoke receiver args) :=
  .bind (checkArity_ends _ _) fun _ => method.routine.run_ends receiver args

theorem HostConstructor.invoke_ends (constructor : HostConstructor) (args : List HostId) :
    Ends (constructor.invoke args) := by
  refine .bind (checkArity_ends _ _) fun _ => .bind (.ask _) fun objects => ?_
  cases constructor.routine with
  | vector | counter | byte => exact newHost_ends _
  | fail => exact .throw _

theorem resolveReference_ends (reference : ReferenceId) : Ends (resolveReference reference) := by
  refine .of_get fun seen => ?_
  dsimp only
  split
  · exact .pure _
  · split
    · split
      · exact .bind (.change _) fun _ => .pure _
      · exact .throw _
    · exact .throw _

/-! ## Instances and scopes -/

theorem newInstance_ends (id : ClassId) (options : CreateOptions) :
    Ends (newInstance id options) := by
  intro world
  cases creatable : options.has .enforceCreation || (world.cls id).mode.creatable with
  | true =>
      rw [newInstance_apply creatable]
      nofun
  | false =>
      rw [newInstance_of_forbidden creatable]
      nofun

theorem openScope?_ends (id : InstanceId) (view : Viewpoint) : Ends (openScope? id view) := by
  intro world
  cases sits : world.level? id view.level with
  | none =>
      rw [openScope?_of_none sits]
      nofun
  | some level =>
      by_cases mode : view.mode = .declarations
      · rw [openScope?_declarations sits mode]
        nofun
      · rw [openScope?_composite sits mode]
        nofun

theorem memberScope_ends (id : InstanceId) (access : Access) : Ends (memberScope id access) :=
  .bind (openScope?_ends id _) fun _ => .pure _

theorem insertSlot_ends (id : StoreId) (name : String) (slot : Slot) :
    Ends (insertSlot id name slot) := by
  refine .of_get fun seen => ?_
  split
  · exact .bind (.throw _) fun _ => .change _
  · exact .bind (.pure _) fun _ => .change _

mutual

theorem declare_ends (name : String) (slot : Slot) :
    (scope : Scope) → Ends (declare scope name slot)
  | .store id => by
      unfold declare
      exact insertSlot_ends id name slot
  | .composite sources => by
      unfold declare
      exact declareFirst_ends name slot sources

theorem declareFirst_ends (name : String) (slot : Slot) :
    (sources : List Scope) → Ends (declareFirst sources name slot)
  | [] => by
      unfold declareFirst
      exact .throw _
  | first :: _ => by
      unfold declareFirst
      exact declare_ends name slot first

end

theorem annotateSlot_ends (id : StoreId) (name : String) (annotations : List InstanceId) :
    Ends (annotateSlot id name annotations) := by
  refine .of_get fun seen => ?_
  split
  · exact .change _
  · exact .bind (.throw _) fun _ => .change _

theorem requireStoreAssembly_ends (id : StoreId) : Ends (requireStoreAssembly id) := by
  refine .of_get fun seen => ?_
  split
  · exact .throw _
  · exact requireAssembly_ends

/-! ## Operators -/

theorem requireFunction_ends (value : Value) : Ends (requireFunction value) := by
  unfold requireFunction
  split
  · exact .pure _
  · exact .bind (typeNameOf_ends _) fun _ => .throw _

theorem castReturn_ends (key : MetaKey) (value : Value) : Ends (castReturn key value) := by
  unfold castReturn
  split
  · exact .pure _
  · exact .bind (typeNameOf_ends _) fun _ => .throw _

theorem unsupportedOperand_ends {α : Type} (key : MetaKey) (operand : Value) :
    Ends (unsupportedOperand key operand : Exec α) :=
  .bind (typeNameOf_ends _) fun _ => .throw _

theorem Exec.ofExcept_ends {α : Type} (result : Except Fault α) : Ends (Exec.ofExcept result) := by
  cases result with
  | ok result => exact .pure _
  | error fault => exact .throw _

theorem primitiveArithmetic_ends (key : MetaKey) (left right : Value) :
    Ends (primitiveArithmetic key left right) := by
  unfold primitiveArithmetic
  split
  · exact .bind (Exec.ofExcept_ends _) fun _ => .pure _
  · split
    · exact .pure _
    · exact unsupportedOperand_ends key _
    · exact unsupportedOperand_ends key _

theorem primitiveOrder_ends (key : MetaKey) (left right : Value) :
    Ends (primitiveOrder key left right) := by
  unfold primitiveOrder
  split
  · exact .pure _
  · exact .pure _
  · split
    · split
      · exact .pure _
      · exact .throw _
    · exact unsupportedOperand_ends key _
    · exact unsupportedOperand_ends key _

/-! ## Expressions -/

theorem Invocation.scopeIn_ends (invocation : Invocation) (mode : ScopeMode) :
    Ends (invocation.scopeIn mode) := by
  unfold Invocation.scopeIn
  split
  · exact .pure _
  · exact .bind (openScope?_ends _ _) fun _ => .pure _

theorem runningCall_ends (site : Option Invocation) : Ends (runningCall site) := by
  cases site with
  | none => exact .throw _
  | some invocation => exact .pure _

theorem requireKey_ends (value : Value) : Ends (requireKey value) := by
  unfold requireKey
  split
  · exact .pure _
  · exact .throw _

theorem requireEntry_ends (target key : Value) : Ends (requireEntry target key) := by
  unfold requireEntry
  split
  · exact .bind (requireKey_ends key) fun _ => .pure _
  · exact .throw _

theorem requireObject_ends (value : Value) : Ends (requireObject value) := by
  unfold requireObject
  split
  · exact .pure _
  · exact .throw _

theorem makeHost_ends (type : HostType) (args : List Value) : Ends (makeHost type args) := by
  unfold makeHost
  split
  · exact .bind (newHost_ends _) fun _ => .pure _
  · exact .throw _

theorem sessionValue_ends (name : String) : Ends (sessionValue name) := by
  refine .of_get fun seen => ?_
  split
  · exact .pure _
  · exact .throw _

/-! ## The host boundary -/

theorem hostForm_ends (type : ValueType) (value : Value) : Ends (hostForm type value) := by
  unfold hostForm
  split
  · exact .pure _
  · exact .of_get fun _ => .pure _
  all_goals exact .bind (newHost_ends _) fun _ => .pure _

theorem toHost_ends (value : Value) (type : ValueType) : Ends (toHost value type) := by
  have converted : ∀ unsupported : Fault, Ends (convertHost type value unsupported) := by
    intro unsupported
    have formed : Ends (formHost type value unsupported) := by
      refine .bind (hostForm_ends type value) fun form => ?_
      cases form with
      | some host => exact .pure _
      | none => exact .throw _
    refine .bind (fun _ => nofun) fun accepted => ?_
    cases accepted with
    | true => exact formed
    | false => exact .bind (.throw _) fun _ => formed
  refine .of_get fun seen => ?_
  split
  · exact .bind (.throw _) fun _ => .of_get fun _ => converted _
  · exact .of_get fun _ => converted _

theorem bindHost_ends (id : InstanceId) (place : Nat) (host : HostId) :
    Ends (bindHost id place host) := by
  refine .of_get fun seen => ?_
  cases seen.level? id place with
  | none => exact .change _
  | some level => exact .bind (.change _) fun _ => .change _

/-! ## Calls -/

theorem liveReceiver_ends (callable : Callable) : Ends (liveReceiver callable) := by
  unfold liveReceiver
  split
  · exact .pure _
  · refine .of_get fun seen => ?_
    split
    · exact .pure _
    · exact .bind (.throw _) fun _ => .pure _

theorem requireReceiver_ends (callable : Callable) : Ends (requireReceiver callable) := by
  refine .bind (liveReceiver_ends callable) fun receiver => ?_
  cases receiver with
  | none => exact .throw _
  | some receiver => exact .pure _

theorem marshalArguments_ends (params : List ValueType) (args : List Value) :
    Ends (marshalArguments params args) := by
  have handed : ∀ pairs, Ends (hostArguments pairs) := by
    intro pairs
    induction pairs with
    | nil => exact .pure _
    | cons pair rest ih => exact .bind (toHost_ends _ _) fun _ => .bind ih fun _ => .pure _
  exact .bind (checkArity_ends _ _) fun _ => handed _

theorem levelHost_ends (receiver : Receiver) : Ends (levelHost receiver) := by
  have found : Ends (levelReference receiver) := by
    refine .of_get fun seen => ?_
    split
    · exact .pure _
    · exact .throw _
  exact .bind found fun reference => resolveReference_ends reference

theorem checkReturn_ends (returns : ValueType) (result : Value) :
    Ends (checkReturn returns result) := by
  have coerced : Ends (coerceReturn returns result) := by
    refine .bind (coerce?_ends returns result) fun stored => ?_
    cases stored with
    | some stored => exact .pure _
    | none => exact .bind (typeNameOf_ends _) fun _ => .throw _
  refine .of_get fun seen => ?_
  split
  · exact .pure _
  · exact coerced

/-! ## Construction -/

theorem constructionContext_ends (options : CreateOptions) : Ends (constructionContext options) := by
  unfold constructionContext
  split
  · exact .pure _
  · exact newConfiguredContext_ends

end ScriptObjects
