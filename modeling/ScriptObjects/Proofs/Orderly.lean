import ScriptObjects.Proofs.Holdings

/-!
# Orderly runs

A run is orderly from a state if, started there in order, it ends in order, whatever it
ends in, and what its result names exists at the end.  The activities are taken one by
one, in the order of the model, each in terms of the requests nested in it: what a run is
given must exist, and what it hands on does.
-/

namespace ScriptObjects

set_option autoImplicit false

open World

namespace Exec

variable {α β : Type} [Naming α] [Naming β]

/-- Started in order, the run ends in order, and what its result names exists. -/
def OrderlyAt (run : Exec α) (world : World) : Prop :=
  world.InOrder → world.Grows (run world).2 ∧ (run world).2.InOrder ∧
    ∀ result, (run world).1 = .done result → (run world).2.Has result

namespace OrderlyAt

variable {world : World}

theorem given {run : Exec α} (orderly : world.InOrder → OrderlyAt run world) :
    OrderlyAt run world :=
  fun order => orderly order order

theorem of_done {run : Exec α} {result : α} {after : World}
    (ends : run world = (.done result, after)) (advances : world.Advances after)
    (has : after.InOrder → after.Has result) : OrderlyAt run world := by
  intro order
  obtain ⟨grows, later⟩ := advances order
  rw [ends]
  refine ⟨grows, later, fun given same => ?_⟩
  cases same
  exact has later

theorem of_failed {run : Exec α} {fault : Fault} {after : World}
    (ends : run world = (.failed fault, after)) (advances : world.Advances after) :
    OrderlyAt run world := by
  intro order
  obtain ⟨grows, later⟩ := advances order
  rw [ends]
  refine ⟨grows, later, fun given same => ?_⟩
  cases same

/-- A run that goes on as another does from a later state. -/
theorem congr {run other : Exec α} {after : World} (same : run world = other after)
    (advances : world.Advances after) (orderly : OrderlyAt other after) : OrderlyAt run world := by
  intro order
  obtain ⟨grows, between⟩ := advances order
  obtain ⟨further, last, has⟩ := orderly between
  rw [same]
  exact ⟨grows.trans further, last, has⟩

theorem pure {result : α} (has : world.Has result) : OrderlyAt (pure result : Exec α) world :=
  .of_done rfl (.refl world) fun _ => has

theorem throw (fault : Fault) : OrderlyAt (throw fault : Exec α) world :=
  .of_failed rfl (.refl world)

theorem ask {question : World → α} (has : world.InOrder → world.Has (question world)) :
    OrderlyAt (Exec.ask question) world :=
  .of_done rfl (.refl world) has

theorem change {update : World → World} (advances : world.Advances (update world)) :
    OrderlyAt (Exec.change update) world :=
  .of_done rfl advances fun _ => trivial

omit [Naming α] in
theorem asked {question : World → α} {next : α → Exec β}
    (second : OrderlyAt (next (question world)) world) :
    OrderlyAt (Exec.ask question >>= next) world :=
  second

theorem of_get {next : World → Exec β} (second : OrderlyAt (next world) world) :
    OrderlyAt ((get : Exec World) >>= next) world :=
  second

theorem bind {run : Exec α} {next : α → Exec β} (first : OrderlyAt run world)
    (second : ∀ result after, world.Grows after → after.Has result →
      OrderlyAt (next result) after) : OrderlyAt (run >>= next) world := by
  intro order
  obtain ⟨grows, between, has⟩ := first order
  rw [bind_apply]
  rcases ends : run world with ⟨outcome, after⟩
  rw [ends] at grows between has
  cases outcome with
  | done result =>
      obtain ⟨further, last, known⟩ := second result after grows (has result rfl) between
      exact ⟨grows.trans further, last, known⟩
  | failed fault => exact ⟨grows, between, fun _ same => by cases same⟩
  | exhausted => exact ⟨grows, between, fun _ same => by cases same⟩

theorem recover {run : Exec α} {handler : Fault → Exec α} (first : OrderlyAt run world)
    (second : ∀ fault after, world.Grows after → OrderlyAt (handler fault) after) :
    OrderlyAt (run.recover handler) world := by
  intro order
  obtain ⟨grows, between, has⟩ := first order
  unfold Exec.recover
  rcases ends : run world with ⟨outcome, after⟩
  rw [ends] at grows between has
  cases outcome with
  | done result => exact ⟨grows, between, has⟩
  | failed fault =>
      obtain ⟨further, last, known⟩ := second fault after grows between
      exact ⟨grows.trans further, last, known⟩
  | exhausted => exact ⟨grows, between, has⟩

theorem attempt {run : Exec α} (first : OrderlyAt run world) :
    OrderlyAt (Exec.attempt run) world := by
  intro order
  obtain ⟨grows, between, has⟩ := first order
  unfold Exec.attempt
  rcases ends : run world with ⟨outcome, after⟩
  rw [ends] at grows between has
  refine ⟨by cases outcome <;> exact grows, by cases outcome <;> exact between, ?_⟩
  intro answer same
  cases outcome with
  | done result =>
      cases same
      intro given same
      cases same
      exact has result rfl
  | failed fault =>
      cases same
      intro given same
      cases same
  | exhausted => cases same

theorem wrapFault {wrap : Fault → Fault} {run : Exec α} (first : OrderlyAt run world) :
    OrderlyAt (Exec.wrapFault wrap run) world := by
  intro order
  obtain ⟨grows, between, has⟩ := first order
  unfold Exec.wrapFault
  rcases ends : run world with ⟨outcome, after⟩
  rw [ends] at grows between has
  cases outcome with
  | done result => exact ⟨grows, between, has⟩
  | failed fault => exact ⟨grows, between, fun _ same => by cases same⟩
  | exhausted => exact ⟨grows, between, has⟩

theorem withFrame {run : Exec α} (context : ContextId) (frame : Frame)
    (first : ∀ deeper, OrderlyAt run (world.withContext context fun _ => deeper)) :
    OrderlyAt (Exec.withFrame context frame run) world := by
  intro order
  cases pushed : (world.context context).push? frame with
  | error limit =>
      rw [withFrame_of_full run pushed]
      exact ⟨.refl world, order, fun _ same => by cases same⟩
  | ok deeper =>
      rw [withFrame_of_pushed run rfl pushed]
      obtain ⟨enters, entered⟩ := Advances.withContext context (fun _ => deeper) order
      obtain ⟨grows, between, has⟩ := first deeper entered
      obtain ⟨leaves, last⟩ :=
        Advances.withContext context (·.truncate (world.context context).depth) between
      exact ⟨(enters.trans grows).trans leaves, last, fun result same => leaves.has (has result same)⟩

end OrderlyAt

end Exec

open Exec

/-! ## Allocations and questions -/

section

variable {world : World}

theorem requireAssembly_orderly : OrderlyAt requireAssembly world := by
  cases alive : world.alive with
  | true => exact .of_done (requireAssembly_of_alive alive) (.refl world) fun _ => trivial
  | false => exact .of_failed (requireAssembly_of_dropped alive) (.refl world)

theorem newTable_orderly {table : Table} (has : world.Has table) :
    OrderlyAt (newTable table) world :=
  .of_done rfl (.pushTable has) fun _ => trivial

theorem newList_orderly {items : List Value} (has : world.Has items) :
    OrderlyAt (newList items) world :=
  .bind (newTable_orderly (has_ofList has)) fun _ _ _ _ => .pure trivial

theorem newHost_orderly {object : HostObject} (has : world.Has object) :
    OrderlyAt (newHost object) world :=
  .of_done rfl (.pushHost has) fun _ => by
    show world.hosts.next.index < (world.hosts.push object).size
    rw [Heap.size_push, Heap.next_index]
    exact Nat.lt_succ_self _

theorem newCallable_orderly {callable : Callable} (has : world.Has callable) :
    OrderlyAt (newCallable callable) world :=
  .of_done rfl (.pushCallable has) fun _ => trivial

theorem newContext_orderly (limit : Option Nat) : OrderlyAt (newContext limit) world :=
  .of_done rfl (.pushContext _) fun _ => trivial

theorem newConfiguredContext_orderly : OrderlyAt newConfiguredContext world :=
  newContext_orderly _

theorem accepts_orderly (type : ValueType) (value : Value) :
    OrderlyAt (Exec.accepts type value) world :=
  .of_done rfl (.resolveBases world _) fun _ => trivial

theorem has_widen {value : Value} (has : world.Has value) (type : ValueType) :
    world.Has (type.widen value) := by
  unfold ValueType.widen
  split
  · exact trivial
  · exact has

theorem coerce?_orderly (type : ValueType) {value : Value} (has : world.Has value) :
    OrderlyAt (coerce? type value) world := by
  refine .bind (accepts_orderly type value) fun accepted after grows _ => ?_
  split
  · exact .pure (has_some (has_widen (grows.has has) type))
  · exact .pure has_none

theorem metaLink?_orderly (id : ClassId) (key : MetaKey) : OrderlyAt (metaLink? id key) world :=
  .of_done rfl (.keepMetaTable world id) fun _ _ _ => trivial

theorem resolveRef?_orderly (reference : ClassRefId) :
    OrderlyAt (resolveRef? reference) world := by
  refine .given fun order => .of_done rfl (.touchRef reference) fun _ target stands => ?_
  exact (Advances.touchRef reference order).1.has (Advances.has_target? order stands)

theorem typeNameOf_orderly (value : Value) : OrderlyAt (typeNameOf value) world :=
  .ask fun _ => trivial

/-! ## Host routines -/

theorem hostObject_orderly (host : HostId) : OrderlyAt (hostObject host) world :=
  .ask fun order => order.holds.hosts host

theorem Accessor.read_orderly (accessor : Accessor) {host : HostId} (has : world.Has host) :
    OrderlyAt (accessor.read host) world := by
  refine .bind (hostObject_orderly host) fun object after grows _ => ?_
  split
  case h_10 => exact .pure (grows.has has)
  case h_14 =>
    have one : after.Has [Value.int 1] := has_cons (show after.Has (Value.int 1) from trivial) has_nil
    exact .bind (newList_orderly one) fun list after _ known => newHost_orderly known
  all_goals
    first
    | exact newHost_orderly trivial
    | exact .throw _

/-- Setting a host object to another of its type. -/
theorem setHost_orderly {host : HostId} {old object : HostObject}
    (held : world.hosts.get host = old) (same : object.type = old.type) (has : world.Has object) :
    OrderlyAt (Exec.change (·.withHost host object)) world :=
  .change (.withHost has (held ▸ same))

theorem Accessor.write_orderly (accessor : Accessor) (host value : HostId) :
    OrderlyAt (accessor.write host value) world := by
  cases accessor with
  | vectorX =>
      refine .asked (.asked ?_)
      split
      · next _ _ held => exact setHost_orderly held rfl trivial
      · exact .throw _
      · exact .throw _
  | counterCount =>
      refine .asked (.asked ?_)
      split
      · next _ _ held => exact setHost_orderly held rfl trivial
      · exact .throw _
      · exact .throw _
  | vectorY | counterSmall | fail | self | unit | staticText | byte | list => exact .throw _

theorem checkArity_orderly (expected actual : Nat) :
    OrderlyAt (checkArity expected actual) world := by
  unfold checkArity
  split
  · exact .pure trivial
  · exact .throw _

theorem MethodRoutine.run_orderly (routine : MethodRoutine) {receiver : HostId}
    {args : List HostId} (bound : world.Has receiver) (has : world.Has args) :
    OrderlyAt (routine.run receiver args) world := by
  refine .asked ?_
  split
  case h_2 x y held =>
    refine .asked (.bind (setHost_orderly held ?_ trivial) fun _ after _ _ => ?_)
    · rfl
    · exact newHost_orderly trivial
  case h_5 n held =>
    refine .asked (.bind (setHost_orderly held ?_ trivial) fun _ after _ _ => ?_)
    · rfl
    · exact newHost_orderly trivial
  case h_7 =>
    cases args with
    | nil => exact newHost_orderly trivial
    | cons first rest => exact .pure (has first List.mem_cons_self)
  case h_8 => exact .pure bound
  case h_9 => exact .asked (newHost_orderly trivial)
  all_goals
    first
    | exact .throw _
    | exact newHost_orderly trivial

theorem HostMethod.invoke_orderly (method : HostMethod) {receiver : HostId}
    {args : List HostId} (bound : world.Has receiver) (has : world.Has args) :
    OrderlyAt (method.invoke receiver args) world :=
  .bind (checkArity_orderly _ _) fun _ _ grows _ =>
    method.routine.run_orderly (grows.has bound) (grows.has has)

theorem ConstructorRoutine.run_orderly (routine : ConstructorRoutine) (args : List HostId) :
    OrderlyAt (routine.run args) world := by
  refine .asked ?_
  cases routine with
  | vector | counter | byte => exact newHost_orderly trivial
  | fail => exact .throw _

theorem HostConstructor.invoke_orderly (constructor : HostConstructor) (args : List HostId) :
    OrderlyAt (constructor.invoke args) world :=
  .bind (checkArity_orderly _ _) fun _ _ _ _ => constructor.routine.run_orderly args

/-- The host object of an instance exists, also when the instance does not. -/
theorem World.InOrder.hosted (order : world.InOrder) {id : InstanceId} {host : HostId}
    (held : (world.object id).host = some host) : world.Has host := by
  refine (order.placed id (Nat.lt_of_not_le fun beyond => ?_)).2.1 host held
  unfold World.object Heap.get at held
  rw [Heap.get?_eq_none _ beyond] at held
  cases held

theorem resolveReference_orderly (reference : ReferenceId) :
    OrderlyAt (resolveReference reference) world := by
  refine .given fun order => .of_get ?_
  dsimp only
  split
  · next host bound => exact .pure (order.holds.references reference host bound)
  · split
    · next host found =>
        obtain ⟨owner, _, hosted⟩ := Option.bind_eq_some_iff.mp found
        have held : (world.object owner).host = some host := by
          split at hosted
          · exact hosted
          · cases hosted
        have has := order.hosted held
        split
        · refine .bind (.change (.bindReference reference has)) fun _ after grows _ => ?_
          exact .pure (grows.has has)
        · exact .throw _
    · exact .throw _

/-! ## New instances and scopes -/

theorem newInstance_orderly {id : ClassId} (has : world.Has id) (options : CreateOptions) :
    OrderlyAt (newInstance id options) world := by
  cases creatable : options.has .enforceCreation || (world.cls id).mode.creatable with
  | true =>
      have follows := Advances.resolveBases world (world.ancestors id)
      refine .given fun order => .of_done (newInstance_apply creatable)
        (follows.trans (.allocate ((follows order).1.has has))) fun _ => ?_
      have size := (allocate_allocates (world.resolveBases (world.ancestors id)) id).size
      show world.instances.size < _
      have instances : (world.resolveBases (world.ancestors id)).instances = world.instances := by
        rw [resolveBases_eq]
      rw [size, instances]
      exact Nat.lt_succ_self _
  | false => exact .of_failed (newInstance_of_forbidden creatable) (.refl world)

/-- A view on an instance is remembered. -/
theorem World.Advances.openView (id : InstanceId) (view : Viewpoint) :
    world.Advances
      (world.withObject id fun object => { object with opened := view :: object.opened }) :=
  .withObject id (fun _ => rfl) (fun _ _ same => same) fun _ has => has

theorem openScope?_orderly (id : InstanceId) (view : Viewpoint) :
    OrderlyAt (openScope? id view) world := by
  cases sits : world.level? id view.level with
  | none => exact .of_done (openScope?_of_none sits) (.refl world) fun _ _ _ => trivial
  | some level =>
      by_cases mode : view.mode = .declarations
      · exact .of_done (openScope?_declarations sits mode) (.refl world) fun _ _ _ => trivial
      · refine .of_done (openScope?_composite sits mode) ?_ fun _ _ _ => trivial
        split
        · exact .openView id view
        · exact .refl world

theorem memberScope_orderly (id : InstanceId) (access : Access) :
    OrderlyAt (memberScope id access) world :=
  .bind (openScope?_orderly id _) fun _ _ _ _ => .pure trivial

/-! ## Values -/

theorem requireFunction_orderly (value : Value) : OrderlyAt (requireFunction value) world := by
  unfold requireFunction
  split
  · exact .pure trivial
  · exact .bind (typeNameOf_orderly _) fun _ _ _ _ => .throw _

theorem castReturn_orderly (key : MetaKey) {value : Value} (has : world.Has value) :
    OrderlyAt (castReturn key value) world := by
  unfold castReturn
  split
  · exact .pure has
  · exact .bind (typeNameOf_orderly _) fun _ _ _ _ => .throw _

theorem Exec.ofExcept_orderly (result : Except Fault Int64) :
    OrderlyAt (Exec.ofExcept result) world := by
  cases result with
  | ok result => exact .pure trivial
  | error fault => exact .throw _

theorem unsupportedOperand_orderly {α : Type} [Naming α] (key : MetaKey) (operand : Value) :
    OrderlyAt (unsupportedOperand key operand : Exec α) world :=
  .bind (typeNameOf_orderly _) fun _ _ _ _ => .throw _

theorem primitiveArithmetic_orderly (key : MetaKey) (left right : Value) :
    OrderlyAt (primitiveArithmetic key left right) world := by
  unfold primitiveArithmetic
  split
  · exact .bind (Exec.ofExcept_orderly _) fun _ _ _ _ => .pure trivial
  · split
    · exact .pure trivial
    · exact unsupportedOperand_orderly key _
    · exact unsupportedOperand_orderly key _

theorem primitiveOrder_orderly (key : MetaKey) (left right : Value) :
    OrderlyAt (primitiveOrder key left right) world := by
  unfold primitiveOrder
  split
  · exact .pure trivial
  · exact .pure trivial
  · split
    · split
      · exact .pure trivial
      · exact .throw _
    · exact unsupportedOperand_orderly key _
    · exact unsupportedOperand_orderly key _

/-! ## Declaring variables -/

theorem insertSlot_orderly (id : StoreId) (name : String) {slot : Slot} (fits : world.Fits slot) :
    OrderlyAt (insertSlot id name slot) world := by
  cases taken : (world.store id).declares name with
  | true => exact .of_failed (insertSlot_of_declared slot taken) (.refl world)
  | false => exact .of_done (insertSlot_of_free slot taken) (.insert id name fits) fun _ => trivial

/-- A slot without a value fits. -/
theorem World.Fits.of_empty {slot : Slot} (annotations : slot.annotations = [])
    (empty : ∀ value, slot.content ≠ .script (some value)) : world.Fits slot where
  annotations := annotations ▸ has_nil
  known value kept := (empty value kept).elim
  accepted value kept := (empty value kept).elim
  widened word kept := (empty (.int word) kept).elim

theorem fits_unassigned (type : ValueType) : world.Fits (.unassigned type) :=
  .of_empty rfl fun _ same => by cases same

theorem fits_hosted (type : ValueType) (accessor : Accessor) (reference : ReferenceId) :
    world.Fits (.hosted type accessor reference) :=
  .of_empty rfl fun _ same => by cases same

theorem fits_fieldSlot (field : Field) (reference : ReferenceId) :
    world.Fits (fieldSlot field reference) := by
  unfold fieldSlot
  split
  · exact fits_unassigned _
  · exact fits_hosted _ _ _

theorem fits_function (callable : CallableId) : world.Fits (.function callable) where
  annotations := has_nil
  known value kept := by
    cases kept
    exact trivial
  accepted value kept := by
    cases kept
    rfl
  widened word kept := by cases kept

mutual

theorem declare_orderly {name : String} {slot : Slot} (fits : world.Fits slot) :
    (scope : Scope) → OrderlyAt (declare scope name slot) world
  | .store id => by
      unfold declare
      exact insertSlot_orderly id name fits
  | .composite sources => by
      unfold declare
      exact declareFirst_orderly fits sources

theorem declareFirst_orderly {name : String} {slot : Slot} (fits : world.Fits slot) :
    (sources : List Scope) → OrderlyAt (declareFirst sources name slot) world
  | [] => by
      unfold declareFirst
      exact .throw _
  | first :: _ => by
      unfold declareFirst
      exact declare_orderly fits first

end

/-! ## The running call -/

theorem Invocation.scopeIn_orderly (call : Invocation) (mode : ScopeMode) :
    OrderlyAt (call.scopeIn mode) world := by
  unfold Invocation.scopeIn
  split
  · exact .pure trivial
  · exact .bind (openScope?_orderly _ _) fun _ _ _ _ => .pure trivial

theorem runningCall_orderly {site : Option Invocation} (has : world.Has site) :
    OrderlyAt (runningCall site) world := by
  cases site with
  | none => exact .throw _
  | some call => exact .pure (has call rfl)

theorem describeFault_orderly (fault : Fault) : OrderlyAt (describeFault fault) world := by
  refine newList_orderly ?_
  intro value member
  simp only [List.mem_cons, List.not_mem_nil, or_false] at member
  obtain rfl | rfl | rfl | rfl := member <;> exact trivial

theorem requireKey_orderly (value : Value) : OrderlyAt (requireKey value) world := by
  unfold requireKey
  split
  · exact .pure trivial
  · exact .throw _

theorem requireEntry_orderly (target key : Value) : OrderlyAt (requireEntry target key) world := by
  unfold requireEntry
  split
  · exact .bind (requireKey_orderly key) fun _ _ _ _ => .pure ⟨trivial, trivial⟩
  · exact .throw _

theorem requireObject_orderly {value : Value} (has : world.Has value) :
    OrderlyAt (requireObject value) world := by
  unfold requireObject
  split
  · exact .pure has
  · exact .throw _

theorem eq_of_ofValues?_dynamic {type : HostType} {args : List Value} {value : Value}
    (made : HostObject.ofValues? type args = some (.dynamic value)) : args = [value] := by
  cases type with
  | dynamic =>
      rcases args with _ | ⟨first, _ | ⟨second, rest⟩⟩
      · cases made
      · cases made
        rfl
      · cases made
  | vector =>
      rcases args with _ | ⟨first, _ | ⟨second, _ | ⟨third, rest⟩⟩⟩
      · cases made
      · cases made
      · obtain ⟨x, -, made⟩ := Option.bind_eq_some_iff.mp made
        obtain ⟨y, -, made⟩ := Option.bind_eq_some_iff.mp made
        cases made
      · cases made
  | float64 =>
      rcases args with _ | ⟨first, _ | ⟨second, rest⟩⟩
      · cases made
      · obtain ⟨x, -, made⟩ := Option.map_eq_some_iff.mp made
        cases made
      · cases made
  | counter | int64 | int32 | byte | boolean | text | staticText | unit =>
      rcases args with _ | ⟨first, _ | ⟨second, rest⟩⟩
      · cases made
      all_goals cases first <;> cases made

theorem has_ofValues? {type : HostType} {args : List Value} {object : HostObject}
    (has : world.Has args) (made : HostObject.ofValues? type args = some object) :
    world.Has object := by
  cases object with
  | dynamic value =>
      obtain rfl := eq_of_ofValues?_dynamic made
      exact has value List.mem_cons_self
  | vector | counter | int64 | int32 | byte | boolean | float64 | text | staticText | unit =>
      exact trivial

theorem makeHost_orderly (type : HostType) {args : List Value} (has : world.Has args) :
    OrderlyAt (makeHost type args) world := by
  unfold makeHost
  split
  · next object made =>
      exact .bind (newHost_orderly (has_ofValues? has made)) fun _ _ _ known => .pure known
  · exact .throw _

theorem sessionValue_orderly (name : String) : OrderlyAt (sessionValue name) world := by
  refine .given fun order => .of_get ?_
  split
  · next value saved =>
      obtain ⟨before, after, same, _⟩ := List.lookup_eq_some_iff.mp saved
      exact .pure (order.holds.bindings (name, .value value) (by rw [same]; simp))
  · exact .throw _

end

end ScriptObjects
