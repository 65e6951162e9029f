import ScriptObjects.Proofs.Tracking
import ScriptObjects.Proofs.Lookups

/-!
# The activities of a run

Every activity evolves the state, provided that the requests nested in it do.  The
order is that of the model: allocations and questions first, then dispatch and
evaluation, then variables, construction and calls, and last the machine.
-/

namespace ScriptObjects

set_option autoImplicit false

open Exec

variable {may : String → Prop} {opened : InstanceId → Prop}

/-! ## Allocations -/

theorem Exec.requireAssembly_leads : Leads may opened requireAssembly := by
  intro world
  refine .of_same ?_
  cases alive : world.alive with
  | true => rw [requireAssembly_of_alive alive]
  | false => rw [requireAssembly_of_dropped alive]

theorem Exec.newTable_leads (table : Table) : Leads may opened (newTable table) :=
  fun _ => .of_change (.table table)

theorem Exec.newList_leads (items : List Value) : Leads may opened (newList items) :=
  .bind (newTable_leads _) fun _ => .pure _

theorem Exec.newHost_leads (object : HostObject) : Leads may opened (newHost object) :=
  fun _ => .of_change (.host object)

theorem Exec.newContext_leads (limit : Option Nat) : Leads may opened (newContext limit) :=
  fun _ => .of_change (.context limit)

theorem Exec.newConfiguredContext_leads : Leads may opened newConfiguredContext :=
  .of_get fun _ => newContext_leads _

theorem Exec.newPlaceholder_leads (className : String) :
    Leads may opened (newCallable (.placeholder className)) :=
  fun _ => .of_change (.placeholder className)

/-! ## Questions to the hierarchy -/

theorem Evolves.resolveBases (world : World) (visited : List ClassId) :
    Evolves may opened world (world.resolveBases visited) :=
  World.resolveBases_induction (motive := Evolves may opened world) (.refl world)
    (fun _ reference evolves => .change evolves (.touch reference)) visited

theorem Exec.accepts_leads (type : ValueType) (value : Value) :
    Leads may opened (accepts type value) :=
  fun _ _ _ => .resolveBases _ _

theorem Exec.coerce?_leads (type : ValueType) (value : Value) :
    Leads may opened (coerce? type value) := by
  refine .bind (accepts_leads type value) fun accepted => ?_
  split <;> exact .pure _

theorem Exec.metaLink?_leads (id : ClassId) (key : MetaKey) :
    Leads may opened (metaLink? id key) := by
  intro world _ _
  show Evolves may opened world (world.keepMetaTable id)
  unfold World.keepMetaTable
  cases missing : (world.cls id).metaTable with
  | some table => exact .refl world
  | none =>
      have same := World.SameHierarchy.resolveBases world (world.visitedByMetaTable id)
      have still : ((world.resolveBases (world.visitedByMetaTable id)).cls id).metaTable = none := by
        rw [World.cls_resolveBases, missing]
      have last : Change may opened _ _ := .metaTable id still
      rw [same.buildMetaTable] at last
      exact .change (.resolveBases world _) last

theorem Exec.resolveRef?_leads (reference : ClassRefId) :
    Leads may opened (resolveRef? reference) :=
  fun _ => .of_change (.touch reference)

/-! ## Host routines -/

theorem Accessor.read_leads (accessor : Accessor) (host : HostId) :
    Leads may opened (accessor.read host) := by
  refine .bind (.ask _) fun object => ?_
  split
  all_goals
    first
    | exact newHost_leads _
    | exact .throw _
    | exact .pure _
    | exact .bind (newList_leads _) fun _ => newHost_leads _

/-- Setting a host object to another of its type is a change of a run. -/
theorem setHost_leadsAt {world : World} {host : HostId} {old object : HostObject}
    (held : world.hosts.get host = old) (same : object.type = old.type) :
    LeadsAt may opened (Exec.change (·.withHost host object)) world :=
  .of_change (.setHost host object (held ▸ same))

theorem Accessor.write_leads (accessor : Accessor) (host value : HostId) :
    Leads may opened (accessor.write host value) := by
  intro world
  cases accessor with
  | vectorX =>
      refine .bind (Leads.ask _ world) fun given after ends _ => ?_
      cases ends
      refine .bind (Leads.ask _ world) fun object after ends _ => ?_
      cases ends
      split
      · next _ _ held => exact setHost_leadsAt held rfl
      · exact .of_same rfl
      · exact .of_same rfl
  | counterCount =>
      refine .bind (Leads.ask _ world) fun given after ends _ => ?_
      cases ends
      refine .bind (Leads.ask _ world) fun object after ends _ => ?_
      cases ends
      split
      · next _ _ held => exact setHost_leadsAt held rfl
      · exact .of_same rfl
      · exact .of_same rfl
  | vectorY | counterSmall | fail | self | unit | staticText | byte | list => exact .of_same rfl

theorem checkArity_leads (expected actual : Nat) :
    Leads may opened (checkArity expected actual) := by
  unfold checkArity
  split
  · exact .pure _
  · exact .throw _

theorem MethodRoutine.run_leads (routine : MethodRoutine) (receiver : HostId)
    (args : List HostId) : Leads may opened (routine.run receiver args) := by
  intro world
  refine LeadsAt.bind (Leads.ask _ world) fun object after ends _ => ?_
  cases ends
  split
  case h_2 x y held =>
    refine .bind (.of_same rfl) fun objects after ends _ => ?_
    cases ends
    refine LeadsAt.bind (setHost_leadsAt held ?_) fun _ _ _ _ => newHost_leads _ _
    rfl
  case h_5 n held =>
    refine .bind (.of_same rfl) fun objects after ends _ => ?_
    cases ends
    refine LeadsAt.bind (setHost_leadsAt held ?_) fun _ _ _ _ => newHost_leads _ _
    rfl
  case h_7 =>
    cases args with
    | nil => exact newHost_leads _ _
    | cons first rest => exact .of_same rfl
  case h_9 => exact Leads.bind (.ask _) (fun _ => newHost_leads _) world
  all_goals
    first
    | exact .of_same rfl
    | exact newHost_leads _ world

theorem HostMethod.invoke_leads (method : HostMethod) (receiver : HostId) (args : List HostId) :
    Leads may opened (method.invoke receiver args) :=
  .bind (checkArity_leads _ _) fun _ => method.routine.run_leads receiver args

theorem ConstructorRoutine.run_leads (routine : ConstructorRoutine) (args : List HostId) :
    Leads may opened (routine.run args) := by
  refine .bind (.ask _) fun objects => ?_
  cases routine with
  | vector | counter | byte => exact newHost_leads _
  | fail => exact .throw _

theorem HostConstructor.invoke_leads (constructor : HostConstructor) (args : List HostId) :
    Leads may opened (constructor.invoke args) :=
  .bind (checkArity_leads _ _) fun _ => constructor.routine.run_leads args

theorem resolveReference_leads (reference : ReferenceId) :
    Leads may opened (resolveReference reference) := by
  refine fun world => .of_get ?_
  dsimp only
  split
  · exact .of_same rfl
  · next unbound =>
      split
      · next host _ =>
          split
          · next described =>
              have bound : Change may opened world (world.bindReference reference host) :=
                .bindFallback reference host unbound described
              exact (LeadsAt.of_change bound).bind fun _ _ _ _ => .of_same rfl
          · exact .of_same rfl
      · exact .of_same rfl

/-! ## New instances and scopes -/

/-- Laying out levels in a run is laying them out in the state. -/
theorem layLevels_apply (owner : InstanceId) (chain : List ClassId) (place : Nat) (world : World) :
    layLevels owner place chain world =
      (.done (world.lay owner place chain).1, (world.lay owner place chain).2) := by
  induction chain generalizing world place with
  | nil => rfl
  | cons id rest ih =>
      have later := ih (place + 1) (world.addLevel owner place id)
      have level : world.nextLevel id = ⟨id, world.references.next, world.stores.next,
          (world.stores.push (.empty (.level owner place id .global))).next,
          ((world.stores.push (.empty (.level owner place id .global))).push
            (.empty (.level owner place id .internal))).next⟩ := by
        simp [World.nextLevel, Heap.next, Heap.push, Heap.size]
      simp only [World.lay, level]
      exact bind_of_done _ later

/-- Creating an instance follows the bases of its class and allocates it. -/
theorem newInstance_apply {world : World} {id : ClassId} {options : CreateOptions}
    (creatable : (options.has .enforceCreation || (world.cls id).mode.creatable) = true) :
    newInstance id options world =
      (.done world.instances.next, (world.resolveBases (world.ancestors id)).allocate id) := by
  let chain := world.ancestors id
  let followed := world.resolveBases chain
  have instances : followed.instances = world.instances := by
    show (world.resolveBases chain).instances = world.instances
    rw [World.resolveBases_eq]
  have same : followed.ancestors id = chain :=
    (World.SameHierarchy.resolveBases world chain).ancestors id
  have laid := layLevels_apply world.instances.next chain 0 followed
  simp only [newInstance, get_bind_apply, creatable, if_true]
  have visited : Exec.ancestors id world = (.done chain, followed) := rfl
  rw [bind_of_done _ visited]
  rw [bind_of_done _ laid]
  simp only [World.allocate]
  rw [instances, same]
  rfl

/-- An instance of a class whose mode forbids it is not created. -/
theorem newInstance_of_forbidden {world : World} {id : ClassId} {options : CreateOptions}
    (forbidden : (options.has .enforceCreation || (world.cls id).mode.creatable) = false) :
    newInstance id options world =
      (.failed (.notCreatable (world.cls id).name (world.cls id).mode), world) := by
  simp only [newInstance, get_bind_apply, forbidden, Bool.false_eq_true, if_false,
    throw_bind_apply]

theorem newInstance_leads (id : ClassId) (options : CreateOptions) :
    Leads may opened (newInstance id options) := by
  intro world _ _
  cases creatable : options.has .enforceCreation || (world.cls id).mode.creatable with
  | true =>
      rw [newInstance_apply creatable]
      exact .change (.resolveBases world _) (.allocate id)
  | false =>
      rw [newInstance_of_forbidden creatable]
      exact .refl world

theorem openScope?_of_none {world : World} {id : InstanceId} {view : Viewpoint}
    (beyond : world.level? id view.level = none) :
    openScope? id view world = (.done none, world) := by
  unfold World.level? at beyond
  simp only [openScope?, get_bind_apply, beyond, pure_apply]

theorem openScope?_declarations {world : World} {id : InstanceId} {view : Viewpoint}
    {level : Level} (sits : world.level? id view.level = some level)
    (mode : view.mode = .declarations) :
    openScope? id view world = (.done (some (.store (level.declarations view.access))), world) := by
  unfold World.level? at sits
  simp only [openScope?, get_bind_apply, sits, mode, pure_apply]

/-- Opening a composite scope remembers that the assembly was there. -/
theorem openScope?_composite {world : World} {id : InstanceId} {view : Viewpoint}
    {level : Level} (sits : world.level? id view.level = some level)
    (mode : view.mode ≠ .declarations) :
    openScope? id view world =
      (.done (some (compositeScope (world.object id).levels view
          ((world.object id).opened.contains view || world.alive))),
        if world.alive && !(world.object id).opened.contains view then
          world.withObject id fun object => { object with opened := view :: object.opened }
        else world) := by
  unfold World.level? at sits
  obtain ⟨place, access, kind⟩ := view
  cases kind with
  | declarations => exact absurd rfl mode
  | base | all =>
      simp only [openScope?, get_bind_apply, sits]
      split
      · simp only [change_bind_apply, pure_apply]
      · rfl

theorem openScope?_leads (id : InstanceId) (view : Viewpoint) :
    Leads may opened (openScope? id view) := by
  intro world _ _
  cases sits : world.level? id view.level with
  | none =>
      rw [openScope?_of_none sits]
      exact .refl world
  | some level =>
      by_cases mode : view.mode = .declarations
      · rw [openScope?_declarations sits mode]
        exact .refl world
      · rw [openScope?_composite sits mode]
        split
        · next both =>
            have alive : world.alive = true := (Bool.and_eq_true_iff.mp both).1
            exact .single (.openView id view alive)
        · exact .refl world

theorem memberScope_leads (id : InstanceId) (access : Access) :
    Leads may opened (memberScope id access) :=
  .bind (openScope?_leads id _) fun _ => .pure _

theorem requireFunction_leads (value : Value) : Leads may opened (requireFunction value) := by
  unfold requireFunction
  split
  · exact .pure _
  · exact .bind (.ask _) fun _ => .throw _

theorem castReturn_leads (key : MetaKey) (value : Value) :
    Leads may opened (castReturn key value) := by
  unfold castReturn
  split
  · exact .pure _
  · exact .bind (.ask _) fun _ => .throw _

theorem Exec.ofExcept_leads {α : Type}
    (result : Except Fault α) : Leads may opened (Exec.ofExcept result) := by
  cases result with
  | ok result => exact .pure _
  | error fault => exact .throw _

theorem unsupportedOperand_leads {α : Type}
    (key : MetaKey) (operand : Value) :
    Leads may opened (unsupportedOperand key operand : Exec α) :=
  .bind (.ask _) fun _ => .throw _

theorem primitiveArithmetic_leads (key : MetaKey) (left right : Value) :
    Leads may opened (primitiveArithmetic key left right) := by
  unfold primitiveArithmetic
  split
  · exact .bind (Exec.ofExcept_leads _) fun _ => .pure _
  · split
    · exact .pure _
    · exact unsupportedOperand_leads key _
    · exact unsupportedOperand_leads key _

theorem primitiveOrder_leads (key : MetaKey) (left right : Value) :
    Leads may opened (primitiveOrder key left right) := by
  unfold primitiveOrder
  split
  · exact .pure _
  · exact .pure _
  · split
    · split
      · exact .pure _
      · exact .throw _
    · exact unsupportedOperand_leads key _
    · exact unsupportedOperand_leads key _

/-! ## Declaring variables -/

/-- Inserting a slot is a change of a run if it is one where the name is free. -/
theorem insertSlot_leadsAt {world : World} {id : StoreId} {name : String} {slot : Slot}
    (change : (world.store id).declares name = false →
      Change may opened world (world.withStore id (·.insert name slot))) :
    LeadsAt may opened (insertSlot id name slot) world := by
  cases taken : (world.store id).declares name with
  | true => exact .of_same (by rw [insertSlot_of_declared slot taken])
  | false =>
      refine .of_change ?_
      rw [insertSlot_of_free slot taken]
      exact change taken

mutual

theorem declare_leads {name : String} (type : ValueType) (permitted : may name) :
    (scope : Scope) → Leads may opened (declare scope name (.unassigned type))
  | .store id => by
      unfold declare
      exact fun _ => insertSlot_leadsAt fun free => .declare id name type permitted free
  | .composite sources => by
      unfold declare
      exact declareFirst_leads type permitted sources

theorem declareFirst_leads {name : String} (type : ValueType) (permitted : may name) :
    (sources : List Scope) → Leads may opened (declareFirst sources name (.unassigned type))
  | [] => by
      unfold declareFirst
      exact .throw _
  | first :: _ => by
      unfold declareFirst
      exact declare_leads type permitted first

end

/-! ## The running call -/

theorem Invocation.scopeIn_leads (invocation : Invocation) (mode : ScopeMode) :
    Leads may opened (invocation.scopeIn mode) := by
  unfold Invocation.scopeIn
  split
  · exact .pure _
  · exact .bind (openScope?_leads _ _) fun _ => .pure _

theorem runningCall_leads (site : Option Invocation) : Leads may opened (runningCall site) := by
  cases site with
  | none => exact .throw _
  | some invocation => exact .pure _

theorem describeFault_leads (fault : Fault) : Leads may opened (describeFault fault) :=
  newList_leads _

theorem requireKey_leads (value : Value) : Leads may opened (requireKey value) := by
  unfold requireKey
  split
  · exact .pure _
  · exact .throw _

theorem requireEntry_leads (target key : Value) : Leads may opened (requireEntry target key) := by
  unfold requireEntry
  split
  · exact .bind (requireKey_leads key) fun _ => .pure _
  · exact .throw _

theorem requireObject_leads (value : Value) : Leads may opened (requireObject value) := by
  unfold requireObject
  split
  · exact .pure _
  · exact .throw _

theorem makeHost_leads (type : HostType) (args : List Value) :
    Leads may opened (makeHost type args) := by
  unfold makeHost
  split
  · exact .bind (newHost_leads _) fun _ => .pure _
  · exact .throw _

theorem sessionValue_leads (name : String) : Leads may opened (sessionValue name) := by
  refine .of_get fun seen => ?_
  split
  · exact .pure _
  · exact .throw _

/-! ## Requests nested in a run -/

section

variable {regime : Regime may opened} {perform other : Perform}
variable (nested : perform.Tracks regime other)
include nested

theorem instantiate_tracks (id : ClassId) (options : CreateOptions) (args : List Value) :
    Exec.Tracks regime (instantiate perform id options args)
      (instantiate other id options args) := by
  intro world permits opens
  refine TracksAt.bind (.own (newInstance_leads id options world)) (fun created after ends _ => ?_)
    permits opens
  cases creatable : options.has .enforceCreation || (world.cls id).mode.creatable with
  | true =>
      rw [newInstance_apply creatable] at ends
      cases ends
      have isOpen : opened world.instances.next := opens _ (Nat.le_refl _)
      exact TracksAt.bind (nested.construct isOpen (regime.allocate world id) options args)
        fun _ after _ _ => Tracks.pure _ after
  | false =>
      rw [newInstance_of_forbidden creatable] at ends
      cases ends

theorem createInstance_tracks (className : String) (options : CreateOptions) (args : List Value) :
    Exec.Tracks regime (createInstance perform className options args)
      (createInstance other className options args) := by
  refine .of_get fun seen => ?_
  split
  · exact instantiate_tracks nested _ options args
  · exact .throw _

/-! ## Dispatch -/

theorem hook_tracks (context : ContextId) (id : InstanceId) (key : MetaKey) (args : List Value) :
    Exec.Tracks regime (hook perform context id key args)
      (hook other context id key args) := by
  refine .of_get fun seen => .after (metaLink?_leads _ key) fun link => ?_
  cases link with
  | none => exact .pure _
  | some link =>
      refine .of_get fun seen => .after (openScope?_leads id _) fun scope => ?_
      cases scope with
      | none => exact .throw _
      | some scope =>
          refine .bind (nested.read scope _) fun value => ?_
          split
          · refine .bind (.wrapFault (nested.call _ args context)) fun result => ?_
            exact .after (castReturn_leads key result) fun _ => .pure _
          · exact .after (.ask _) fun _ => .throw _

/-- The part of a binary hook that follows the answer of the left operand. -/
def rightHook (perform : Perform) (context : ContextId) (key : MetaKey) (left right : Value)
    (fromLeft : Option Value) : Exec (Option Value) :=
  match fromLeft, right with
  | some result, _ => return some result
  | none, .object id => hook perform context id key [left]
  | none, _ => return none

theorem binaryHook_tracks (context : ContextId) (key : MetaKey) (left right : Value) :
    Exec.Tracks regime (binaryHook perform context key left right)
      (binaryHook other context key left right) := by
  have second : ∀ fromLeft : Option Value, Exec.Tracks regime
      (rightHook perform context key left right fromLeft)
      (rightHook other context key left right fromLeft) := by
    intro fromLeft
    unfold rightHook
    split
    · exact .pure _
    · exact hook_tracks nested context _ key _
    · exact .pure _
  unfold binaryHook
  split
  · exact .bind (hook_tracks nested context _ key _) second
  · exact .after (.pure _) second

theorem unaryHook_tracks (context : ContextId) (key : MetaKey) (operand : Value) :
    Exec.Tracks regime (unaryHook perform context key operand)
      (unaryHook other context key operand) := by
  unfold unaryHook
  split
  · exact hook_tracks nested context _ key _
  · exact .pure _

theorem intercept_tracks (key : MetaKey) (name : String) (value : Value)
    (annotations : List InstanceId) :
    Exec.Tracks regime (intercept perform key name value annotations)
      (intercept other key name value annotations) := by
  induction annotations generalizing value with
  | nil => exact .pure _
  | cons annotation rest ih =>
      refine .bind (hook_tracks nested _ annotation key _) fun result => ?_
      cases result with
      | none => exact ih value
      | some result => exact ih result

theorem arithmetic_tracks (context : ContextId) (key : MetaKey) (left right : Value) :
    Exec.Tracks regime (arithmetic perform context key left right)
      (arithmetic other context key left right) := by
  refine .bind (binaryHook_tracks nested context key left right) fun result => ?_
  cases result with
  | none => exact .own (primitiveArithmetic_leads key left right)
  | some result => exact .pure _

theorem negate_tracks (context : ContextId) (operand : Value) :
    Exec.Tracks regime (negate perform context operand)
      (negate other context operand) := by
  refine .bind (unaryHook_tracks nested context _ operand) fun result => ?_
  cases result with
  | some result => exact .pure _
  | none =>
      dsimp only
      split
      · exact .after (Exec.ofExcept_leads _) fun _ => .pure _
      · exact .pure _
      · exact .own (unsupportedOperand_leads _ _)

theorem stringify_tracks (context : ContextId) (value : Value) :
    Exec.Tracks regime (stringify perform context value)
      (stringify other context value) := by
  refine .bind (unaryHook_tracks nested context _ value) fun result => ?_
  cases result with
  | some result => exact .pure _
  | none => exact .of_get fun _ => .pure _

theorem concat_tracks (context : ContextId) (left right : Value) :
    Exec.Tracks regime (concat perform context left right) (concat other context left right) := by
  have joined : Exec.Tracks regime (do
      let first ← stringify perform context left
      let second ← stringify perform context right
      return Value.text (first ++ second)) (do
      let first ← stringify other context left
      let second ← stringify other context right
      return Value.text (first ++ second)) :=
    .bind (stringify_tracks nested context left) fun _ =>
      .bind (stringify_tracks nested context right) fun _ => .pure _
  have checked : ∀ operand (next later : Exec Value), Exec.Tracks regime next later →
      Exec.Tracks regime (do
        unless joinable operand do
          unsupportedOperand MetaKey.concat operand
        next) (do
        unless joinable operand do
          unsupportedOperand MetaKey.concat operand
        later) := by
    intro operand next later tracks
    split
    · exact tracks
    · exact .after (unsupportedOperand_leads _ _) fun _ => tracks
  refine .bind (binaryHook_tracks nested context _ left right) fun result => ?_
  cases result with
  | some result => exact .pure _
  | none => exact checked left _ _ (checked right _ _ joined)

theorem lengthOf_tracks (context : ContextId) (value : Value) :
    Exec.Tracks regime (lengthOf perform context value)
      (lengthOf other context value) := by
  refine .bind (unaryHook_tracks nested context _ value) fun result => ?_
  cases result with
  | some result => exact .pure _
  | none =>
      dsimp only
      split
      · exact .pure _
      · exact .of_get fun _ => .pure _
      · exact .own (unsupportedOperand_leads _ _)

theorem equals_tracks (context : ContextId) (left right : Value) :
    Exec.Tracks regime (equals perform context left right)
      (equals other context left right) := by
  refine .bind (binaryHook_tracks nested context _ left right) fun result => ?_
  cases result <;> exact .pure _

theorem less_tracks (context : ContextId) (left right : Value) :
    Exec.Tracks regime (less perform context left right)
      (less other context left right) := by
  refine .bind (binaryHook_tracks nested context _ left right) fun result => ?_
  cases result with
  | some result => exact .pure _
  | none => exact .after (primitiveOrder_leads _ left right) fun _ => .pure _

theorem lessEqual_tracks (context : ContextId) (left right : Value) :
    Exec.Tracks regime (lessEqual perform context left right)
      (lessEqual other context left right) := by
  refine .bind (binaryHook_tracks nested context _ left right) fun result => ?_
  cases result with
  | some result => exact .pure _
  | none => exact .after (primitiveOrder_leads _ left right) fun _ => .pure _

theorem iterate_tracks (context : ContextId) (value : Value) :
    Exec.Tracks regime (iterate perform context value)
      (iterate other context value) := by
  refine .bind (unaryHook_tracks nested context _ value) fun result => ?_
  split
  · exact .of_get fun _ => .pure _
  · exact .after (.ask _) fun _ => .throw _
  · split
    · exact .of_get fun _ => .pure _
    · exact .own (unsupportedOperand_leads _ _)

theorem callValue_tracks (context : ContextId) (target : Value) (args : List Value) :
    Exec.Tracks regime (callValue perform context target args)
      (callValue other context target args) := by
  unfold callValue
  split
  · exact nested.call _ args context
  · refine .bind (hook_tracks nested context _ _ args) fun result => ?_
    cases result with
    | some result => exact .pure _
    | none => exact .after (.ask _) fun _ => .throw _
  · exact .after (.ask _) fun _ => .throw _

theorem operate_tracks (context : ContextId) (operator : Operator) (operands : List Value) :
    Exec.Tracks regime (operate perform context operator operands)
      (operate other context operator operands) := by
  cases operator with
  | add | subtract | multiply | divide | remainder => exact arithmetic_tracks nested context _ _ _
  | negate => exact negate_tracks nested context _
  | concat => exact concat_tracks nested context _ _
  | stringify => exact .bind (stringify_tracks nested context _) fun _ => .pure _
  | length => exact .bind (lengthOf_tracks nested context _) fun _ => .pure _
  | equals => exact .bind (equals_tracks nested context _ _) fun _ => .pure _
  | less => exact .bind (less_tracks nested context _ _) fun _ => .pure _
  | lessEqual => exact .bind (lessEqual_tracks nested context _ _) fun _ => .pure _
  | iterate => exact .bind (iterate_tracks nested context _) fun _ => .own (newList_leads _)
  | call => exact callValue_tracks nested context _ _

end

/-! ## Evaluation -/

mutual

theorem evaluate_tracks {regime : Regime may opened} {perform other : Perform}
    (nested : perform.Tracks regime other) (site : Option Invocation) : (expr : Expr) →
    (∀ name ∈ expr.declaredNames, may name) → Exec.Tracks regime (evaluate perform site expr)
      (evaluate other site expr)
  | .null, _ | .bool _, _ | .int _, _ | .float _, _ | .text _, _ => by
      unfold evaluate
      exact .pure _
  | .list items, permitted => by
      unfold evaluate
      exact .bind (evaluateAll_tracks nested site items permitted) fun _ => .own (newList_leads _)
  | .table entries, permitted => by
      unfold evaluate
      refine .bind (evaluateEntries_tracks nested site .empty entries permitted) fun _ => ?_
      exact .after (newTable_leads _) fun _ => .pure _
  | .host type args, permitted => by
      unfold evaluate
      exact .bind (evaluateAll_tracks nested site args permitted) fun _ => .own (makeHost_leads type _)
  | .var name, _ => by
      unfold evaluate
      exact .own (sessionValue_leads name)
  | .bind name value, permitted => by
      unfold evaluate
      refine .bind (evaluate_tracks nested site value permitted) fun result => ?_
      exact .after (.change fun _ => .save name result) fun _ => .pure _
  | .sequence steps, permitted => by
      unfold evaluate
      exact .bind (evaluateAll_tracks nested site steps permitted) fun _ => .pure _
  | .branch condition thenCase elseCase, permitted => by
      simp only [Expr.declaredNames, List.mem_append, or_imp, forall_and] at permitted
      obtain ⟨⟨inCondition, inThen⟩, inElse⟩ := permitted
      unfold evaluate
      refine .bind (evaluate_tracks nested site condition inCondition) fun result => ?_
      split
      · exact evaluate_tracks nested site thenCase inThen
      · exact evaluate_tracks nested site elseCase inElse
  | .log value, permitted => by
      unfold evaluate
      refine .bind (evaluate_tracks nested site value permitted) fun result => ?_
      exact .after (.change fun world => .record _) fun _ => .pure _
  | .index target key, permitted => by
      simp only [Expr.declaredNames, List.mem_append, or_imp, forall_and] at permitted
      unfold evaluate
      refine .bind (evaluate_tracks nested site target permitted.1) fun _ => ?_
      refine .bind (evaluate_tracks nested site key permitted.2) fun _ => ?_
      exact .after (requireEntry_leads _ _) fun _ => .of_get fun _ => .pure _
  | .setIndex target key value, permitted => by
      simp only [Expr.declaredNames, List.mem_append, or_imp, forall_and] at permitted
      obtain ⟨⟨inTarget, inKey⟩, inValue⟩ := permitted
      unfold evaluate
      refine .bind (evaluate_tracks nested site target inTarget) fun _ => ?_
      refine .bind (evaluate_tracks nested site key inKey) fun _ => ?_
      refine .bind (evaluate_tracks nested site value inValue) fun result => ?_
      refine .after (requireEntry_leads _ _) fun entry => ?_
      exact .after (.change fun _ => .setTable entry.1 _) fun _ => .pure _
  | .typeName value, permitted => by
      unfold evaluate
      exact .bind (evaluate_tracks nested site value permitted) fun _ => .after (.ask _) fun _ => .pure _
  | .identical left right, permitted => by
      simp only [Expr.declaredNames, List.mem_append, or_imp, forall_and] at permitted
      unfold evaluate
      refine .bind (evaluate_tracks nested site left permitted.1) fun _ => ?_
      exact .bind (evaluate_tracks nested site right permitted.2) fun _ => .pure _
  | .member target access name, permitted => by
      unfold evaluate
      refine .bind (evaluate_tracks nested site target permitted) fun _ => ?_
      refine .after (requireObject_leads _) fun id => ?_
      exact .after (memberScope_leads id access) fun scope => nested.read scope name
  | .setMember target access name value, permitted => by
      simp only [Expr.declaredNames, List.mem_append, or_imp, forall_and] at permitted
      unfold evaluate
      refine .bind (evaluate_tracks nested site target permitted.1) fun _ => ?_
      refine .after (requireObject_leads _) fun id => ?_
      refine .after (memberScope_leads id access) fun scope => ?_
      refine .bind (evaluate_tracks nested site value permitted.2) fun result => ?_
      exact .bind (nested.assign scope name result) fun _ => .pure _
  | .throw _, _ | .raiseHost _, _ | .raiseType _ _, _ | .raiseNotDeclared _, _ => by
      unfold evaluate
      exact .throw _
  | .attempt value, permitted => by
      unfold evaluate
      refine .bind (.attempt (evaluate_tracks nested site value permitted)) fun result => ?_
      cases result with
      | ok result => exact .own (newList_leads _)
      | error fault => exact .own (describeFault_leads fault)
  | .arg _, _ | .argCount, _ | .this, _ | .level, _ => by
      unfold evaluate
      exact .after (runningCall_leads site) fun _ => .pure _
  | .args, _ => by
      unfold evaluate
      exact .after (runningCall_leads site) fun _ => .own (newList_leads _)
  | .trace, _ | .depth, _ => by
      unfold evaluate
      exact .after (runningCall_leads site) fun _ => .of_get fun _ => .pure _
  | .get name, _ | .baseGet name, _ => by
      unfold evaluate
      refine .after (runningCall_leads site) fun call => ?_
      exact .after (call.scopeIn_leads _) fun scope => nested.read scope name
  | .set name value, permitted | .baseSet name value, permitted => by
      unfold evaluate
      refine .after (runningCall_leads site) fun call => ?_
      refine .bind (evaluate_tracks nested site value permitted) fun result => ?_
      refine .after (call.scopeIn_leads _) fun scope => ?_
      exact .bind (nested.assign scope name result) fun _ => .pure _
  | .declare name type, permitted => by
      unfold evaluate
      refine .after (runningCall_leads site) fun call => ?_
      refine .after (call.scopeIn_leads _) fun scope => ?_
      have allowed : may name := permitted name List.mem_cons_self
      exact .after (declare_leads type allowed scope) fun _ => .pure _
  | .call name args, permitted | .baseCall name args, permitted => by
      unfold evaluate
      refine .after (runningCall_leads site) fun call => ?_
      refine .bind (evaluateAll_tracks nested site args permitted) fun values => ?_
      refine .after (call.scopeIn_leads _) fun scope => ?_
      exact .bind (nested.read scope name) fun target => callValue_tracks nested _ target values
  | .create className args, permitted => by
      unfold evaluate
      refine .after (runningCall_leads site) fun call => ?_
      refine .bind (evaluateAll_tracks nested site args permitted) fun values => ?_
      exact .bind (createInstance_tracks nested className _ values) fun _ => .pure _
  | .operate operator args, permitted => by
      unfold evaluate
      refine .after (runningCall_leads site) fun call => ?_
      exact .bind (evaluateAll_tracks nested site args permitted) fun values =>
        operate_tracks nested _ operator values

theorem evaluateAll_tracks {regime : Regime may opened} {perform other : Perform}
    (nested : perform.Tracks regime other) (site : Option Invocation) : (exprs : List Expr) →
    (∀ name ∈ Expr.declaredNamesOfAll exprs, may name) →
    Exec.Tracks regime (evaluateAll perform site exprs)
      (evaluateAll other site exprs)
  | [], _ => by
      unfold evaluateAll
      exact .pure _
  | expr :: rest, permitted => by
      simp only [Expr.declaredNamesOfAll, List.mem_append, or_imp, forall_and] at permitted
      unfold evaluateAll
      refine .bind (evaluate_tracks nested site expr permitted.1) fun _ => ?_
      exact .bind (evaluateAll_tracks nested site rest permitted.2) fun _ => .pure _

theorem evaluateEntries_tracks {regime : Regime may opened} {perform other : Perform}
    (nested : perform.Tracks regime other) (site : Option Invocation) (table : Table) :
    (entries : List (Expr × Expr)) → (∀ name ∈ Expr.declaredNamesOfEntries entries, may name) →
    Exec.Tracks regime (evaluateEntries perform site table entries)
      (evaluateEntries other site table entries)
  | [], _ => by
      unfold evaluateEntries
      exact .pure _
  | (key, value) :: rest, permitted => by
      simp only [Expr.declaredNamesOfEntries, List.mem_append, or_imp, forall_and] at permitted
      obtain ⟨⟨inKey, inValue⟩, inRest⟩ := permitted
      unfold evaluateEntries
      refine .bind (evaluate_tracks nested site key inKey) fun _ => ?_
      refine .bind (evaluate_tracks nested site value inValue) fun _ => ?_
      exact .after (requireKey_leads _) fun _ => evaluateEntries_tracks nested site _ rest inRest

end

end ScriptObjects
