import ScriptObjects.Proofs.HostReferences

/-!
# Every run spares what is attached

First the runs that leave all of that aside, then the activities in the order of
the model, each in terms of the requests nested in it.  The two places that attach something
are taken as a whole: a function is put into its slot together with its annotations, and so is
a field, so that what is attached is attached to a slot that was not there before.
-/

namespace ScriptObjects

set_option autoImplicit false

open Exec World

/-! ## Still runs -/

theorem Exec.requireAssembly_still : Still requireAssembly := by
  intro world
  cases alive : world.alive with
  | true => rw [requireAssembly_of_alive alive]; exact .refl world
  | false => rw [requireAssembly_of_dropped alive]; exact .refl world

theorem requireStoreAssembly_still (id : StoreId) : Still (requireStoreAssembly id) := by
  refine .of_get fun seen => ?_
  split
  · exact .throw _
  · exact requireAssembly_still

theorem Exec.newHost_still (object : HostObject) : Still (newHost object) :=
  fun world => .pushHost world object

theorem Exec.newList_still (items : List Value) : Still (newList items) := fun _ => {}

theorem Exec.newContext_still (limit : Option Nat) : Still (newContext limit) := fun _ => {}

theorem World.resolveBases_still (world : World) (visited : List ClassId) :
    Aside world (world.resolveBases visited) := by
  rw [resolveBases_eq]
  exact {}

theorem World.askedFor_still (world : World) (id : StoreId) (name : String) :
    Aside world (world.askedFor id name) := by
  unfold World.askedFor
  split
  · split
    · exact .refl world
    · exact world.resolveBases_still _
  · exact .refl world
  · exact .refl world

theorem Exec.accepts_still (type : ValueType) (value : Value) : Still (accepts type value) :=
  fun world => world.resolveBases_still _

theorem Exec.coerce?_still (type : ValueType) (value : Value) : Still (coerce? type value) := by
  refine .bind (accepts_still type value) fun accepted => ?_
  split <;> exact .pure _

theorem World.keepMetaTable_still (world : World) (id : ClassId) :
    Aside world (world.keepMetaTable id) := by
  unfold World.keepMetaTable
  split
  · exact .refl world
  · exact (world.resolveBases_still _).trans (.withMetaTable _ id _)

theorem Exec.metaLink?_still (id : ClassId) (key : MetaKey) : Still (metaLink? id key) :=
  fun world => world.keepMetaTable_still id

theorem World.touchRef_still (world : World) (reference : ClassRefId) :
    Aside world (world.touchRef reference) := by
  rw [touchRef_eq]
  exact {}

theorem Exec.resolveRef?_still (reference : ClassRefId) : Still (resolveRef? reference) :=
  fun world => world.touchRef_still reference

theorem Accessor.read_still (accessor : Accessor) (host : HostId) : Still (accessor.read host) := by
  refine .bind (.ask _) fun object => ?_
  split
  all_goals
    first
    | exact newHost_still _
    | exact .throw _
    | exact .pure _
    | exact .bind (newList_still _) fun _ => newHost_still _

/-- What a routine does to a host object depends on what it finds there. -/
def StillAt {α : Type} (world : World) (run : Exec α) : Prop := Aside world (run world).2

theorem StillAt.asked {α β : Type} {world : World} {question : World → α} {next : α → Exec β}
    (second : StillAt world (next (question world))) :
    StillAt world (Exec.ask question >>= next) :=
  second

theorem StillAt.setHost {world : World} {host : HostId} {old object : HostObject}
    (held : world.hosts.get host = old) (same : object.type = old.type) :
    StillAt world (Exec.change (·.withHost host object)) :=
  World.Aside.withHost world (held ▸ same)

theorem Accessor.write_still (accessor : Accessor) (host value : HostId) :
    Still (accessor.write host value) := by
  cases accessor with
  | vectorX | counterCount =>
      refine fun world => StillAt.asked (.asked ?_)
      split
      · next _ _ held => exact .setHost held rfl
      · exact Still.throw _ world
      · exact Still.throw _ world
  | vectorY | counterSmall | fail | self | unit | staticText | byte | list => exact .throw _

theorem checkArity_still (expected actual : Nat) : Still (checkArity expected actual) := by
  unfold checkArity
  split
  · exact .pure _
  · exact .throw _

theorem MethodRoutine.run_still (routine : MethodRoutine) (receiver : HostId)
    (args : List HostId) : Still (routine.run receiver args) := by
  refine fun world => StillAt.asked ?_
  split
  case h_2 x y held =>
    refine StillAt.asked (World.Aside.trans (StillAt.setHost held ?_) (newHost_still _ _))
    rfl
  case h_5 n held =>
    refine StillAt.asked (World.Aside.trans (StillAt.setHost held ?_) (newHost_still _ _))
    rfl
  case h_7 =>
    cases args with
    | nil => exact newHost_still _ world
    | cons first rest => exact Still.pure _ world
  case h_9 => exact StillAt.asked (newHost_still _ world)
  all_goals
    first
    | exact Still.throw _ world
    | exact Still.pure _ world
    | exact newHost_still _ world

theorem HostMethod.invoke_still (method : HostMethod) (receiver : HostId) (args : List HostId) :
    Still (method.invoke receiver args) :=
  .bind (checkArity_still _ _) fun _ => method.routine.run_still receiver args

theorem HostConstructor.invoke_still (constructor : HostConstructor) (args : List HostId) :
    Still (constructor.invoke args) := by
  refine .bind (checkArity_still _ _) fun _ => .bind (.ask _) fun objects => ?_
  cases constructor.routine with
  | vector | counter | byte => exact newHost_still _
  | fail => exact .throw _

/-! ## Host references -/

theorem resolveReference_sparing (reference : ReferenceId) :
    Sparing (resolveReference reference) := by
  intro except world live
  have evolves : Evolves (fun _ => True) (fun _ => True) world (resolveReference reference world).2 :=
    resolveReference_leads reference world world.permits_all fun _ _ => trivial
  cases bound : (world.references.get reference).bound with
  | some host =>
      rw [resolveReference_of_bound bound]
      exact .refl world
  | none =>
      cases falls : world.fallback? (world.references.get reference) with
      | some host =>
          rw [resolveReference_of_fallback bound falls] at evolves ⊢
          exact .of_still evolves rfl rfl
      | none =>
          rw [resolveReference_of_nowhere bound falls]
          exact .refl world

theorem levelHost_sparing (receiver : Receiver) : Sparing (levelHost receiver) := by
  refine .bind (.of_get fun seen => ?_) resolveReference_sparing
  split
  · exact .pure _
  · exact .throw _

/-! ## Still runs of scripts -/

theorem castReturn_still (key : MetaKey) (value : Value) : Still (castReturn key value) := by
  unfold castReturn
  split
  · exact .pure _
  · exact .bind (.ask _) fun _ => .throw _

theorem requireFunction_still (value : Value) : Still (requireFunction value) := by
  unfold requireFunction
  split
  · exact .pure _
  · exact .bind (.ask _) fun _ => .throw _

theorem Exec.ofExcept_still {α : Type} (result : Except Fault α) : Still (Exec.ofExcept result) := by
  cases result with
  | ok result => exact .pure _
  | error fault => exact .throw _

theorem unsupportedOperand_still {α : Type} (key : MetaKey) (operand : Value) :
    Still (unsupportedOperand key operand : Exec α) :=
  .bind (.ask _) fun _ => .throw _

theorem primitiveArithmetic_still (key : MetaKey) (left right : Value) :
    Still (primitiveArithmetic key left right) := by
  unfold primitiveArithmetic
  split
  · exact .bind (ofExcept_still _) fun _ => .pure _
  · split
    · exact .pure _
    · exact unsupportedOperand_still key _
    · exact unsupportedOperand_still key _

theorem primitiveOrder_still (key : MetaKey) (left right : Value) :
    Still (primitiveOrder key left right) := by
  unfold primitiveOrder
  split
  · exact .pure _
  · exact .pure _
  · split
    · split
      · exact .pure _
      · exact .throw _
    · exact unsupportedOperand_still key _
    · exact unsupportedOperand_still key _

theorem runningCall_still (site : Option Invocation) : Still (runningCall site) := by
  cases site with
  | none => exact .throw _
  | some invocation => exact .pure _

theorem requireKey_still (value : Value) : Still (requireKey value) := by
  unfold requireKey
  split
  · exact .pure _
  · exact .throw _

theorem requireEntry_still (target key : Value) : Still (requireEntry target key) := by
  unfold requireEntry
  split
  · exact .bind (requireKey_still key) fun _ => .pure _
  · exact .throw _

theorem requireObject_still (value : Value) : Still (requireObject value) := by
  unfold requireObject
  split
  · exact .pure _
  · exact .throw _

theorem makeHost_still (type : HostType) (args : List Value) : Still (makeHost type args) := by
  unfold makeHost
  split
  · exact .bind (newHost_still _) fun _ => .pure _
  · exact .throw _

theorem sessionValue_still (name : String) : Still (sessionValue name) := by
  refine .of_get fun seen => ?_
  split
  · exact .pure _
  · exact .throw _

theorem hostForm_still (type : ValueType) (value : Value) : Still (hostForm type value) := by
  unfold hostForm
  split
  · exact .pure _
  · exact .of_get fun _ => .pure _
  all_goals exact .bind (newHost_still _) fun _ => .pure _

theorem toHost_still (value : Value) (type : ValueType) : Still (toHost value type) := by
  have converted : ∀ unsupported : Fault, Still (convertHost type value unsupported) := by
    intro unsupported
    have formed : Still (formHost type value unsupported) := by
      refine .bind (hostForm_still type value) fun form => ?_
      cases form with
      | some host => exact .pure _
      | none => exact .throw _
    refine .bind (accepts_still type value) fun accepted => ?_
    cases accepted with
    | true => exact formed
    | false => exact .bind (.throw _) fun _ => formed
  refine .of_get fun seen => ?_
  split
  · exact .bind (.throw _) fun _ => .of_get fun _ => converted _
  · exact .of_get fun _ => converted _

theorem liveReceiver_still (callable : Callable) : Still (liveReceiver callable) := by
  unfold liveReceiver
  split
  · exact .pure _
  · refine .of_get fun seen => ?_
    split
    · exact .pure _
    · exact .bind (.throw _) fun _ => .pure _

theorem requireReceiver_still (callable : Callable) : Still (requireReceiver callable) := by
  refine .bind (liveReceiver_still callable) fun receiver => ?_
  cases receiver with
  | none => exact .throw _
  | some receiver => exact .pure _

theorem marshalArguments_still (params : List ValueType) (args : List Value) :
    Still (marshalArguments params args) := by
  have handed : ∀ pairs, Still (hostArguments pairs) := by
    intro pairs
    induction pairs with
    | nil => exact .pure _
    | cons pair rest ih => exact .bind (toHost_still _ _) fun _ => .bind ih fun _ => .pure _
  exact .bind (checkArity_still _ _) fun _ => handed _

theorem levelReference_still (receiver : Receiver) : Still (levelReference receiver) := by
  refine .of_get fun seen => ?_
  split
  · exact .pure _
  · exact .throw _

theorem checkReturn_still (returns : ValueType) (result : Value) :
    Still (checkReturn returns result) := by
  have coerced : Still (coerceReturn returns result) := by
    refine .bind (coerce?_still returns result) fun stored => ?_
    cases stored with
    | some stored => exact .pure _
    | none => exact .bind (.ask _) fun _ => .throw _
  refine .of_get fun seen => ?_
  split
  · exact .pure _
  · exact coerced

theorem constructionContext_still (options : CreateOptions) :
    Still (constructionContext options) := by
  unfold constructionContext
  split
  · exact .pure _
  · exact .of_get fun _ => newContext_still _

/-! ## Instances, scopes and declarations -/

theorem openScope?_sparing (id : InstanceId) (view : Viewpoint) : Sparing (openScope? id view) := by
  intro except world
  cases sits : world.level? id view.level with
  | none => exact .of_apply (openScope?_of_none sits) (.refl world)
  | some level =>
      by_cases mode : view.mode = .declarations
      · exact .of_apply (openScope?_declarations sits mode) (.refl world)
      · refine .of_apply (openScope?_composite sits mode) ?_
        split
        · next both =>
            have alive : world.alive = true := (Bool.and_eq_true_iff.mp both).1
            exact .withObject id (.single (.openView id view alive)) fun _ _ => ⟨rfl, rfl⟩
        · exact .refl world

theorem memberScope_sparing (id : InstanceId) (access : Access) :
    Sparing (memberScope id access) :=
  .bind (openScope?_sparing id _) fun _ => .pure _

theorem Invocation.scopeIn_sparing (invocation : Invocation) (mode : ScopeMode) :
    Sparing (invocation.scopeIn mode) := by
  unfold Invocation.scopeIn
  split
  · exact .pure _
  · exact .bind (openScope?_sparing _ _) fun _ => .pure _

mutual

theorem declare_sparing (name : String) (type : ValueType) :
    (scope : Scope) → Sparing (declare scope name (.unassigned type))
  | .store id => by
      unfold declare
      intro except world
      cases taken : (world.store id).declares name with
      | true => exact .of_apply (insertSlot_of_declared _ taken) (.refl world)
      | false =>
          refine .of_apply (insertSlot_of_free _ taken) ?_
          exact .insert (.single (.declare id name type trivial taken)) (.inl ⟨rfl, none, rfl⟩)
  | .composite sources => by
      unfold declare
      exact declareFirst_sparing name type sources

theorem declareFirst_sparing (name : String) (type : ValueType) :
    (sources : List Scope) → Sparing (declareFirst sources name (.unassigned type))
  | [] => by
      unfold declareFirst
      exact .throw _
  | first :: _ => by
      unfold declareFirst
      exact declare_sparing name type first

end

theorem bindHost_sparing (id : InstanceId) (place : Nat) (host : HostId) :
    Sparing (bindHost id place host) := by
  have adopts : Sparing (Exec.change (·.adoptHost id host)) := fun except world =>
    .of_apply rfl (.withObject id (.single (.adopt id host)) fun _ _ => ⟨rfl, rfl⟩)
  refine fun except world => ?_
  cases sits : world.level? id place with
  | none =>
      have same : bindHost id place host world = Exec.change (·.adoptHost id host) world := by
        simp only [bindHost, get_bind_apply, sits]
      exact .congr same (.refl world) (adopts except world)
  | some level =>
      have same : bindHost id place host world =
          Exec.change (·.adoptHost id host) (world.bindReference level.reference host) := by
        simp only [bindHost, get_bind_apply, sits, change_bind_apply]
      refine .congr same ?_ (adopts except _)
      exact .of_still (.single (.bindLevel id place level host sits)) rfl rfl

theorem World.Spares.follow {except : InstanceId → Prop} (world : World) (visited : List ClassId) :
    Spares except world (world.resolveBases visited) :=
  .of_still (.resolveBases world visited) (world.resolveBases_still visited).stores
    (world.resolveBases_still visited).instances

theorem World.Spares.newInstance {except : InstanceId → Prop} (world : World) (id : ClassId) :
    Spares except world ((world.resolveBases (world.ancestors id)).allocate id) :=
  (Spares.follow world _).trans (.allocate _ id)

/-! ## Instances and hooks -/

/-- Requests spare what is attached, except that a construction attaches annotations to its own
instance. -/
structure Perform.Sparing (perform : Perform) : Prop where
  leads : perform.Leads
  call : ∀ (callable : CallableId) (args : List Value) (context : ContextId),
    Exec.Sparing (perform (.call callable args context) : Exec Value)
  read : ∀ (scope : Scope) (name : String), Exec.Sparing (perform (.read scope name) : Exec Value)
  assign : ∀ (scope : Scope) (name : String) (value : Value),
    Exec.Sparing (perform (.assign scope name value) : Exec Unit)
  construct : ∀ (id : InstanceId) (options : CreateOptions) (args : List Value) (world : World),
    SparesAt (· = id) (perform (.construct id options args) : Exec Unit) world

section

variable {perform : Perform} (nested : perform.Sparing)
include nested

/-- The construction of an instance that was just allocated attaches nothing to older ones. -/
theorem Perform.Sparing.construct_new {world between : World} {created : InstanceId}
    (beyond : world.instances.size ≤ created.index) (except : InstanceId → Prop)
    (allocated : ∀ except, Spares except world between) (options : CreateOptions)
    (args : List Value) (live : world.Live) :
    Spares except world (perform (.construct created options args) between).2 := by
  have constructed := nested.construct created options args between
    (live.later (allocated except).evolves)
  refine ((allocated _).trans constructed).weaken fun id inside same => ?_
  subst same
  exact absurd inside (Nat.not_lt_of_le beyond)

theorem instantiate_sparing (id : ClassId) (options : CreateOptions) (args : List Value) :
    Exec.Sparing (instantiate perform id options args) := by
  intro except world live
  cases creatable : options.has .enforceCreation || (world.cls id).mode.creatable with
  | false =>
      have refused : instantiate perform id options args world = _ :=
        bind_of_failed _ (newInstance_of_forbidden creatable)
      rw [refused]
      exact .refl world
  | true =>
      let after := (world.resolveBases (world.ancestors id)).allocate id
      have allocated : ∀ except, Spares except world after := fun except => .newInstance world id
      have beyond : world.instances.size ≤ world.instances.next.index := Nat.le_refl _
      have whole := nested.construct_new beyond except allocated options args live
      have made : instantiate perform id options args world = (do
          perform (.construct world.instances.next options args)
          return world.instances.next : Exec InstanceId) after :=
        bind_of_done _ (newInstance_apply creatable)
      rw [made, bind_apply]
      rcases ends : perform (.construct world.instances.next options args) after with
        ⟨outcome, last⟩
      rw [ends] at whole
      cases outcome <;> exact whole

theorem createInstance_sparing (className : String) (options : CreateOptions)
    (args : List Value) : Exec.Sparing (createInstance perform className options args) := by
  refine .of_get fun seen => ?_
  split
  · exact instantiate_sparing nested _ options args
  · exact .throw _

theorem hook_sparing (context : ContextId) (id : InstanceId) (key : MetaKey) (args : List Value) :
    Exec.Sparing (hook perform context id key args) := by
  refine .of_get fun seen => .bind (.still (metaLink?_leads _ _) (metaLink?_still _ key))
    fun link => ?_
  cases link with
  | none => exact .pure _
  | some link =>
      refine .of_get fun seen => .bind (openScope?_sparing id _) fun scope => ?_
      cases scope with
      | none => exact .throw _
      | some scope =>
          refine .bind (nested.read scope _) fun value => ?_
          split
          · refine .bind (.wrapFault (nested.call _ args context)) fun result => ?_
            exact .bind (.still (castReturn_leads key result) (castReturn_still key result))
              fun _ => .pure _
          · exact .bind (.ask _) fun _ => .throw _

theorem binaryHook_sparing (context : ContextId) (key : MetaKey) (left right : Value) :
    Exec.Sparing (binaryHook perform context key left right) := by
  have second : ∀ fromLeft : Option Value,
      Exec.Sparing (rightHook perform context key left right fromLeft) := by
    intro fromLeft
    unfold rightHook
    split
    · exact .pure _
    · exact hook_sparing nested context _ key _
    · exact .pure _
  unfold binaryHook
  split
  · exact .bind (hook_sparing nested context _ key _) second
  · exact .bind (.pure _) second

theorem unaryHook_sparing (context : ContextId) (key : MetaKey) (operand : Value) :
    Exec.Sparing (unaryHook perform context key operand) := by
  unfold unaryHook
  split
  · exact hook_sparing nested context _ key _
  · exact .pure _

theorem intercept_sparing (key : MetaKey) (name : String) (value : Value)
    (annotations : List InstanceId) :
    Exec.Sparing (intercept perform key name value annotations) := by
  induction annotations generalizing value with
  | nil => exact .pure _
  | cons annotation rest ih =>
      refine .bind (hook_sparing nested _ annotation key _) fun result => ?_
      cases result with
      | none => exact ih value
      | some result => exact ih result

/-! ## Operators -/

theorem arithmetic_sparing (context : ContextId) (key : MetaKey) (left right : Value) :
    Exec.Sparing (arithmetic perform context key left right) := by
  refine .bind (binaryHook_sparing nested context key left right) fun result => ?_
  cases result with
  | none => exact .still (primitiveArithmetic_leads key left right) (primitiveArithmetic_still _ _ _)
  | some result => exact .pure _

theorem negate_sparing (context : ContextId) (operand : Value) :
    Exec.Sparing (negate perform context operand) := by
  refine .bind (unaryHook_sparing nested context _ operand) fun result => ?_
  cases result with
  | some result => exact .pure _
  | none =>
      dsimp only
      split
      · exact .bind (.still (ofExcept_leads _) (ofExcept_still _)) fun _ => .pure _
      · exact .pure _
      · exact .still (unsupportedOperand_leads _ _) (unsupportedOperand_still _ _)

theorem stringify_sparing (context : ContextId) (value : Value) :
    Exec.Sparing (stringify perform context value) := by
  refine .bind (unaryHook_sparing nested context _ value) fun result => ?_
  cases result with
  | some result => exact .pure _
  | none => exact .of_get fun _ => .pure _

theorem concat_sparing (context : ContextId) (left right : Value) :
    Exec.Sparing (concat perform context left right) := by
  have joined : Exec.Sparing (do
      let first ← stringify perform context left
      let second ← stringify perform context right
      return Value.text (first ++ second)) :=
    .bind (stringify_sparing nested context left) fun _ =>
      .bind (stringify_sparing nested context right) fun _ => .pure _
  have checked : ∀ (operand : Value) (next : Exec Value), Exec.Sparing next → Exec.Sparing (do
      unless joinable operand do
        unsupportedOperand MetaKey.concat operand
      next) := by
    intro operand next spares
    split
    · exact spares
    · exact .bind (.still (unsupportedOperand_leads _ _) (unsupportedOperand_still _ _))
        fun _ => spares
  refine .bind (binaryHook_sparing nested context _ left right) fun result => ?_
  cases result with
  | some result => exact .pure _
  | none => exact checked left _ (checked right _ joined)

theorem lengthOf_sparing (context : ContextId) (value : Value) :
    Exec.Sparing (lengthOf perform context value) := by
  refine .bind (unaryHook_sparing nested context _ value) fun result => ?_
  cases result with
  | some result => exact .pure _
  | none =>
      dsimp only
      split
      · exact .pure _
      · exact .of_get fun _ => .pure _
      · exact .still (unsupportedOperand_leads _ _) (unsupportedOperand_still _ _)

theorem equals_sparing (context : ContextId) (left right : Value) :
    Exec.Sparing (equals perform context left right) := by
  refine .bind (binaryHook_sparing nested context _ left right) fun result => ?_
  cases result <;> exact .pure _

theorem less_sparing (context : ContextId) (left right : Value) :
    Exec.Sparing (less perform context left right) := by
  refine .bind (binaryHook_sparing nested context _ left right) fun result => ?_
  cases result with
  | some result => exact .pure _
  | none =>
      exact .bind (.still (primitiveOrder_leads _ left right) (primitiveOrder_still _ _ _))
        fun _ => .pure _

theorem lessEqual_sparing (context : ContextId) (left right : Value) :
    Exec.Sparing (lessEqual perform context left right) := by
  refine .bind (binaryHook_sparing nested context _ left right) fun result => ?_
  cases result with
  | some result => exact .pure _
  | none =>
      exact .bind (.still (primitiveOrder_leads _ left right) (primitiveOrder_still _ _ _))
        fun _ => .pure _

theorem iterate_sparing (context : ContextId) (value : Value) :
    Exec.Sparing (iterate perform context value) := by
  refine .bind (unaryHook_sparing nested context _ value) fun result => ?_
  split
  · exact .of_get fun _ => .pure _
  · exact .bind (.ask _) fun _ => .throw _
  · split
    · exact .of_get fun _ => .pure _
    · exact .still (unsupportedOperand_leads _ _) (unsupportedOperand_still _ _)

theorem callValue_sparing (context : ContextId) (target : Value) (args : List Value) :
    Exec.Sparing (callValue perform context target args) := by
  unfold callValue
  split
  · exact nested.call _ args context
  · refine .bind (hook_sparing nested context _ _ args) fun result => ?_
    cases result with
    | some result => exact .pure _
    | none => exact .bind (.ask _) fun _ => .throw _
  · exact .bind (.ask _) fun _ => .throw _

theorem operate_sparing (context : ContextId) (operator : Operator) (operands : List Value) :
    Exec.Sparing (operate perform context operator operands) := by
  cases operator with
  | add | subtract | multiply | divide | remainder => exact arithmetic_sparing nested context _ _ _
  | negate => exact negate_sparing nested context _
  | concat => exact concat_sparing nested context _ _
  | stringify => exact .bind (stringify_sparing nested context _) fun _ => .pure _
  | length => exact .bind (lengthOf_sparing nested context _) fun _ => .pure _
  | equals => exact .bind (equals_sparing nested context _ _) fun _ => .pure _
  | less => exact .bind (less_sparing nested context _ _) fun _ => .pure _
  | lessEqual => exact .bind (lessEqual_sparing nested context _ _) fun _ => .pure _
  | iterate =>
      exact .bind (iterate_sparing nested context _) fun _ =>
        .still (newList_leads _) (newList_still _)
  | call => exact callValue_sparing nested context _ _

end

/-! ## Evaluation -/

mutual

theorem evaluate_sparing {perform : Perform} (nested : perform.Sparing)
    (site : Option Invocation) : (expr : Expr) → Exec.Sparing (evaluate perform site expr)
  | .null | .bool _ | .int _ | .float _ | .text _ => by
      unfold evaluate
      exact .pure _
  | .list items => by
      unfold evaluate
      exact .bind (evaluateAll_sparing nested site items) fun _ =>
        .still (newList_leads _) (newList_still _)
  | .table entries => by
      unfold evaluate
      refine .bind (evaluateEntries_sparing nested site .empty entries) fun _ => ?_
      exact .bind (.still (newTable_leads _) fun _ => {}) fun _ => .pure _
  | .host type args => by
      unfold evaluate
      exact .bind (evaluateAll_sparing nested site args) fun _ =>
        .still (makeHost_leads type _) (makeHost_still type _)
  | .var name => by
      unfold evaluate
      exact .still (sessionValue_leads name) (sessionValue_still name)
  | .bind name value => by
      unfold evaluate
      refine .bind (evaluate_sparing nested site value) fun result => ?_
      exact .bind (.still (.change fun _ => .save name result) fun _ => {}) fun _ => .pure _
  | .sequence steps => by
      unfold evaluate
      exact .bind (evaluateAll_sparing nested site steps) fun _ => .pure _
  | .branch condition thenCase elseCase => by
      unfold evaluate
      refine .bind (evaluate_sparing nested site condition) fun result => ?_
      split
      · exact evaluate_sparing nested site thenCase
      · exact evaluate_sparing nested site elseCase
  | .log value => by
      unfold evaluate
      refine .bind (evaluate_sparing nested site value) fun result => ?_
      exact .bind (.still (.change fun world => .record _) fun _ => {}) fun _ => .pure _
  | .index target key => by
      unfold evaluate
      refine .bind (evaluate_sparing nested site target) fun _ => ?_
      refine .bind (evaluate_sparing nested site key) fun _ => ?_
      exact .bind (.still (requireEntry_leads _ _) (requireEntry_still _ _)) fun _ =>
        .of_get fun _ => .pure _
  | .setIndex target key value => by
      unfold evaluate
      refine .bind (evaluate_sparing nested site target) fun _ => ?_
      refine .bind (evaluate_sparing nested site key) fun _ => ?_
      refine .bind (evaluate_sparing nested site value) fun result => ?_
      refine .bind (.still (requireEntry_leads _ _) (requireEntry_still _ _)) fun entry => ?_
      exact .bind (.still (.change fun _ => .setTable entry.1 _) fun _ => {})
        fun _ => .pure _
  | .typeName value => by
      unfold evaluate
      exact .bind (evaluate_sparing nested site value) fun _ => .bind (.ask _) fun _ => .pure _
  | .identical left right => by
      unfold evaluate
      refine .bind (evaluate_sparing nested site left) fun _ => ?_
      exact .bind (evaluate_sparing nested site right) fun _ => .pure _
  | .member target access name => by
      unfold evaluate
      refine .bind (evaluate_sparing nested site target) fun _ => ?_
      refine .bind (.still (requireObject_leads _) (requireObject_still _)) fun id => ?_
      exact .bind (memberScope_sparing id access) fun scope => nested.read scope name
  | .setMember target access name value => by
      unfold evaluate
      refine .bind (evaluate_sparing nested site target) fun _ => ?_
      refine .bind (.still (requireObject_leads _) (requireObject_still _)) fun id => ?_
      refine .bind (memberScope_sparing id access) fun scope => ?_
      refine .bind (evaluate_sparing nested site value) fun result => ?_
      exact .bind (nested.assign scope name result) fun _ => .pure _
  | .throw _ | .raiseHost _ | .raiseType _ _ | .raiseNotDeclared _ => by
      unfold evaluate
      exact .throw _
  | .attempt value => by
      unfold evaluate
      refine .bind (.attempt (evaluate_sparing nested site value)) fun result => ?_
      cases result with
      | ok result => exact .still (newList_leads _) (newList_still _)
      | error fault => exact .still (describeFault_leads fault) (newList_still _)
  | .arg _ | .argCount | .this | .level => by
      unfold evaluate
      exact .bind (.still (runningCall_leads site) (runningCall_still site)) fun _ => .pure _
  | .args => by
      unfold evaluate
      exact .bind (.still (runningCall_leads site) (runningCall_still site)) fun _ =>
        .still (newList_leads _) (newList_still _)
  | .trace | .depth => by
      unfold evaluate
      exact .bind (.still (runningCall_leads site) (runningCall_still site)) fun _ =>
        .of_get fun _ => .pure _
  | .get name | .baseGet name => by
      unfold evaluate
      refine .bind (.still (runningCall_leads site) (runningCall_still site)) fun call => ?_
      exact .bind (call.scopeIn_sparing _) fun scope => nested.read scope name
  | .set name value | .baseSet name value => by
      unfold evaluate
      refine .bind (.still (runningCall_leads site) (runningCall_still site)) fun call => ?_
      refine .bind (evaluate_sparing nested site value) fun result => ?_
      refine .bind (call.scopeIn_sparing _) fun scope => ?_
      exact .bind (nested.assign scope name result) fun _ => .pure _
  | .declare name type => by
      unfold evaluate
      refine .bind (.still (runningCall_leads site) (runningCall_still site)) fun call => ?_
      refine .bind (call.scopeIn_sparing _) fun scope => ?_
      exact .bind (declare_sparing name type scope) fun _ => .pure _
  | .call name args | .baseCall name args => by
      unfold evaluate
      refine .bind (.still (runningCall_leads site) (runningCall_still site)) fun call => ?_
      refine .bind (evaluateAll_sparing nested site args) fun values => ?_
      refine .bind (call.scopeIn_sparing _) fun scope => ?_
      exact .bind (nested.read scope name) fun target => callValue_sparing nested _ target values
  | .create className args => by
      unfold evaluate
      refine .bind (.still (runningCall_leads site) (runningCall_still site)) fun call => ?_
      refine .bind (evaluateAll_sparing nested site args) fun values => ?_
      exact .bind (createInstance_sparing nested className _ values) fun _ => .pure _
  | .operate operator args => by
      unfold evaluate
      refine .bind (.still (runningCall_leads site) (runningCall_still site)) fun call => ?_
      exact .bind (evaluateAll_sparing nested site args) fun values =>
        operate_sparing nested _ operator values

theorem evaluateAll_sparing {perform : Perform} (nested : perform.Sparing)
    (site : Option Invocation) :
    (exprs : List Expr) → Exec.Sparing (evaluateAll perform site exprs)
  | [] => by
      unfold evaluateAll
      exact .pure _
  | expr :: rest => by
      unfold evaluateAll
      refine .bind (evaluate_sparing nested site expr) fun _ => ?_
      exact .bind (evaluateAll_sparing nested site rest) fun _ => .pure _

theorem evaluateEntries_sparing {perform : Perform} (nested : perform.Sparing)
    (site : Option Invocation) (table : Table) :
    (entries : List (Expr × Expr)) → Exec.Sparing (evaluateEntries perform site table entries)
  | [] => by
      unfold evaluateEntries
      exact .pure _
  | (key, value) :: rest => by
      unfold evaluateEntries
      refine .bind (evaluate_sparing nested site key) fun _ => ?_
      refine .bind (evaluate_sparing nested site value) fun _ => ?_
      exact .bind (.still (requireKey_leads _) (requireKey_still _)) fun _ =>
        evaluateEntries_sparing nested site _ rest

end

end ScriptObjects
