import ScriptObjects.Proofs.Orderliness

/-!
# Stored values are well typed

A session is a sequence of commands on a living assembly.  Whatever it is asked to do, and
however that ends, every value that a slot keeps is one that the declared type of the slot
accepts, in the state of the moment; a slot for floats keeps no integer; and a slot keeps its
type for as long as the session lasts.

The commands are those of the host program: declarations at any time, creation and
construction, lookups and writes through any scope, declarations and annotations of
variables, calls and operators, and the exchange of host objects.  The arguments of a
command are things that exist; a session has no others.
-/

namespace ScriptObjects

set_option autoImplicit false

open World Exec

/-! ## Definitions -/

/-- More references keep what every class extends. -/
theorem World.Extends.of_linked {world : World} (order : world.InOrder)
    {refs : Heap .classRef ClassRef} {more : List Function}
    (same : ∀ reference, reference.index < world.classRefs.size →
      refs.get reference = world.classRefs.get reference) :
    world.Extends { world with classRefs := refs, functions := world.functions ++ more } where
  size := Nat.le_refl _
  cls _ _ := rfl
  inside id base next := by
    obtain ⟨reference, _, stands⟩ := Option.bind_eq_some_iff.mp next
    exact Advances.has_target? order stands
  base id base next := by
    obtain ⟨reference, based, stands⟩ := Option.bind_eq_some_iff.mp next
    refine Option.bind_eq_some_iff.mpr ⟨reference, based, ?_⟩
    refine Eq.trans (target?_congr ?_ ?_ ?_) stands
    · rfl
    · rfl
    · exact same reference (order.holds.classes id reference based)
  functions := ⟨more, rfl⟩

/-- A class that a reference stands for it goes on standing for when a class is added. -/
theorem World.Adds.target?_old {spec : ClassSpec} {before after : World}
    (adds : Adds spec before after) {reference : ClassRefId} {target : ClassId}
    (inside : before.Has reference) (stands : before.target? reference = some target) :
    after.target? reference = some target := by
  unfold target? at stands ⊢
  rw [adds.alive]
  split at stands
  · next alive =>
      rw [if_pos alive]
      dsimp only at stands ⊢
      cases known : (before.classRefs.get reference).target with
      | some cached =>
          rw [adds.remembered reference (by rw [known]; rfl)]
          rw [known] at stands ⊢
          exact stands
      | none =>
          rw [known] at stands
          rw [adds.names reference inside]
          cases later : (after.classRefs.get reference).target with
          | none => exact adds.findClass?_old stands
          | some cached =>
              obtain old | found := adds.targets reference cached later
              · rw [known] at old
                cases old
              · rw [adds.names reference inside] at found
                exact found.symm.trans stands
  · cases stands

theorem World.Adds.extends_inOrder {spec : ClassSpec} {before after : World}
    (adds : Adds spec before after) (order : before.InOrder) : before.Extends after where
  size := by
    rw [adds.size]
    exact Nat.le_succ _
  cls _ inside := adds.cls_old inside
  inside id base next := by
    obtain ⟨reference, _, stands⟩ := Option.bind_eq_some_iff.mp next
    exact Advances.has_target? order stands
  base id base next := by
    obtain ⟨reference, based, stands⟩ := Option.bind_eq_some_iff.mp next
    have inside : id.index < before.classes.size := by
      apply Nat.lt_of_not_le
      intro beyond
      unfold World.cls Heap.get at based
      rw [Heap.get?_eq_none _ beyond] at based
      cases based
    refine Option.bind_eq_some_iff.mpr ⟨reference, by rw [adds.cls_old inside]; exact based, ?_⟩
    exact adds.target?_old (order.holds.classes id reference based) stands
  functions := ⟨[], by rw [adds.rest, List.append_nil]⟩

namespace World.Advances

variable {world : World}

theorem addClass {spec : ClassSpec} {after : World} (adds : Adds spec world after) :
    world.Advances after := by
  intro order
  have grows : world.Grows after := by
    refine .of_extends (adds.extends_inOrder order) adds.refs ?_ ?_ ?_ <;> rw [adds.rest]
  have later := order.holds.later order.placed grows.toKeepsTypes
  have classes : ∀ id, after.Has (after.classes.get id) := by
    intro id
    by_cases newest : id = world.classes.next
    · rw [newest]
      exact adds.describes.baseRef
    · rw [show after.classes.get id = world.classes.get id from adds.cls_ne newest]
      exact later.classes id
  have classRefs : ∀ id, after.Has (after.classRefs.get id) := by
    intro id target known
    obtain old | found := adds.targets id target known
    · exact later.classRefs id target old
    · exact grows.has (order.findClass? _ target found)
  have registry : after.Has after.registry := by
    have newest : after.Has world.classes.next := by
      show world.classes.size < after.classes.size
      rw [adds.size]
      exact Nat.lt_succ_self _
    refine ⟨fun name => ?_, ?_, fun host => ?_⟩
    · show after.Has (after.findClass? name)
      rw [adds.findClass?]
      split
      · exact has_some newest
      · exact grows.has (order.findClass? name)
    · rw [adds.order]
      exact has_append (grows.has order.holds.registry.2.1) (has_cons newest has_nil)
    · show after.Has (after.classForHost? host)
      rw [adds.classForHost?]
      split
      · exact has_some newest
      · exact grows.has (order.classForHost? host)
  have placed : ∀ id : InstanceId, world.Has id → after.Has (world.object id) :=
    fun id inside => grows.has (order.placed id inside)
  have holds : Holds after { world with
      classes := after.classes, registry := after.registry, classRefs := after.classRefs } :=
    { later with classes, registry, classRefs }
  rw [← adds.rest] at holds
  refine ⟨grows, ?_, holds⟩
  rw [adds.rest] at placed ⊢
  exact placed

/-- The state with more references and more functions of the assembly. -/
theorem linked {refs : Heap .classRef ClassRef} (functions : List Function)
    (size : world.classRefs.size ≤ refs.size)
    (same : ∀ reference, reference.index < world.classRefs.size →
      refs.get reference = world.classRefs.get reference)
    (has : ∀ reference, world.Has (refs.get reference)) :
    world.Advances { world with classRefs := refs, functions := world.functions ++ functions } := by
  refine fun order => of_holds (.of_extends (.of_linked order same) size rfl rfl rfl)
    (fun order => ⟨fun id inside => ?_, { order.holds with classRefs := has, classes := ?_ }⟩) order
  · exact order.placed id inside
  · exact order.holds.classes

theorem define {spec : ClassSpec} {after : World}
    (ok : (World.define spec).run world = (.ok (), after)) : world.Advances after :=
  addClass (define_ok ok)

theorem defineFunction {spec : FunctionDecl String} {after : World}
    (ok : (World.defineFunction spec).run world = (.ok (), after)) : world.Advances after := by
  have adds := defineFunction_ok ok
  rw [adds.rest]
  refine fun order => linked [_] adds.refs.size adds.refs.same (fun reference => ?_) order
  intro target known
  by_cases old : reference.index < world.classRefs.size
  · rw [adds.refs.same reference old] at known
    exact order.holds.classRefs reference target known
  · rw [adds.refs.fresh reference (Nat.le_of_not_lt old)] at known
    cases known

theorem newClassRef (name : String) {target : Option ClassId} (has : world.Has target) :
    world.Advances { world with classRefs := world.classRefs.push ⟨name, target⟩ } := by
  have pushed : world.Advances { world with
      classRefs := world.classRefs.push ⟨name, target⟩, functions := world.functions ++ [] } :=
    fun order => linked [] (by simp) (fun _ old => Heap.get_push_of_lt _ _ old)
      (has_push order.holds.classRefs has) order
  rw [List.append_nil] at pushed
  exact pushed

theorem pushStore (attached : Bool) :
    world.Advances { world with stores := world.stores.push (.empty (.free attached)) } := by
  have read : ∀ id : StoreId, (world.stores.push (.empty (.free attached))).get id =
      world.store id ∨ (world.stores.push (.empty (.free attached))).get id =
        .empty (.free attached) := by
    intro id
    rw [Heap.get_push]
    split
    · exact .inr rfl
    · exact .inl rfl
  have keeps : world.KeepsSlots
      { world with stores := world.stores.push (.empty (.free attached)) } :=
    .of_same fun id old => Heap.get_push_of_lt world.stores _ old
  refine .of_holds { slots := keeps } fun order =>
    ⟨order.placed, { order.holds with homes := fun id => ?_, slots := fun id => ?_ }⟩
  · show world.Has ((world.stores.push (.empty (.free attached))).get id).home
    obtain same | same := read id <;> rw [same]
    · exact order.holds.homes id
    · trivial
  · show ∀ entry ∈ ((world.stores.push (.empty (.free attached))).get id).slots, _
    obtain same | same := read id <;> rw [same]
    · exact order.holds.slots id
    · exact fun entry member => (List.not_mem_nil member).elim

theorem setBindings {entries : List (String × Binding)}
    (among : ∀ entry ∈ entries, entry ∈ world.bindings) :
    world.Advances { world with bindings := entries } :=
  .of_holds (.of_same rfl rfl rfl rfl rfl rfl rfl) fun order =>
    ⟨order.placed, { order.holds with
      bindings := fun entry member => order.holds.bindings entry (among entry member) }⟩

theorem setFrames (contexts : Heap .context Context) (held : List (String × HeldFrame)) :
    world.Advances { world with contexts := contexts, heldFrames := held } :=
  .of_holds (.of_same rfl rfl rfl rfl rfl rfl rfl) fun order => ⟨order.placed, { order.holds with }⟩

/-- Following references, as the validation does. -/
theorem follows {after : World} (follows : World.Follows world after) : world.Advances after := by
  induction follows with
  | refl => exact .refl world
  | touch _ reference ih => exact ih.trans (.touchRef reference)

end World.Advances

/-! ## Variables from outside -/

section

variable {world : World}

theorem isSlotAssigned_orderly (id : StoreId) (name : String) :
    OrderlyAt (isSlotAssigned id name) world := by
  refine .of_get ?_
  cases (world.store id).slot? name with
  | none => exact .pure trivial
  | some slot =>
      obtain ⟨type, content, annotations, immutable⟩ := slot
      cases content with
      | script value => exact .pure trivial
      | host accessor reference =>
          refine .bind (.attempt (resolveReference_orderly reference)) fun answer _ _ _ => ?_
          cases answer <;> exact .pure trivial

theorem orElseUndeclared_orderly {α : Type} [Naming α] {run next : Exec α}
    (first : OrderlyAt run world) (second : ∀ after, world.Grows after → OrderlyAt next after) :
    OrderlyAt (orElseUndeclared run next) world := by
  refine .recover first fun fault after grows => ?_
  cases fault with
  | lookup cause =>
      dsimp only
      split
      · exact second after grows
      · exact .throw _
  | _ => exact .throw _

theorem storeAnnotations_orderly {perform : Perform} (nested : perform.Orderly) (id : StoreId)
    (name : String) : OrderlyAt (storeAnnotations perform id name) world := by
  refine .of_get ?_
  split
  case' isFalse =>
    refine .bind (.attempt (materialize_orderly nested id name)) fun answer _ _ _ => ?_
    split
    case' h_2 => refine .bind (α := Unit) (.throw _) fun _ _ _ _ => ?_
    case' h_3 => refine .bind (α := Unit) (.throw _) fun _ _ _ _ => ?_
  -- In each case that is left the slot is read in the end.
  all_goals
    refine .given fun order => .of_get ?_
    split
    · next slot there =>
        obtain ⟨before, after, same, _⟩ := List.lookup_eq_some_iff.mp there
        exact .pure (order.holds.slots id (name, slot) (by rw [same]; simp)).annotations
    · exact .throw _

end

mutual

theorem isAssigned_orderly (name : String) {world : World} :
    (scope : Scope) → OrderlyAt (isAssigned name scope) world
  | .store id => by
      unfold isAssigned
      exact isSlotAssigned_orderly id name
  | .composite sources => by
      unfold isAssigned
      exact isAssignedInFirst_orderly name sources

theorem isAssignedInFirst_orderly (name : String) {world : World} :
    (sources : List Scope) → OrderlyAt (isAssignedInFirst name sources) world
  | [] => by
      unfold isAssignedInFirst
      exact .pure trivial
  | source :: rest => by
      unfold isAssignedInFirst
      refine .of_get ?_
      split
      · exact isAssigned_orderly name source
      · exact isAssignedInFirst_orderly name rest

end

mutual

theorem annotationsOf_orderly {perform : Perform} (nested : perform.Orderly) (name : String)
    {world : World} : (scope : Scope) → OrderlyAt (annotationsOf perform name scope) world
  | .store id => by
      unfold annotationsOf
      exact storeAnnotations_orderly nested id name
  | .composite sources => by
      unfold annotationsOf
      exact annotationsInSources_orderly nested name sources

theorem annotationsInSources_orderly {perform : Perform} (nested : perform.Orderly)
    (name : String) {world : World} :
    (sources : List Scope) → OrderlyAt (annotationsInSources perform name sources) world
  | [] => by
      unfold annotationsInSources
      exact .throw _
  | source :: rest => by
      unfold annotationsInSources
      exact orElseUndeclared_orderly (annotationsOf_orderly nested name source) fun _ _ =>
        annotationsInSources_orderly nested name rest

end

mutual

theorem annotate_orderly (name : String) {annotations : List InstanceId} {world : World}
    (has : world.Has annotations) :
    (scope : Scope) → OrderlyAt (annotate name annotations scope) world
  | .store id => by
      unfold annotate
      exact annotateSlot_orderly id name has
  | .composite sources => by
      unfold annotate
      exact annotateSources_orderly name has sources

theorem annotateSources_orderly (name : String) {annotations : List InstanceId} {world : World}
    (has : world.Has annotations) :
    (sources : List Scope) → OrderlyAt (annotateSources name annotations sources) world
  | [] => by
      unfold annotateSources
      exact .throw _
  | source :: rest => by
      unfold annotateSources
      exact orElseUndeclared_orderly (annotate_orderly name has source) fun _ grows =>
        annotateSources_orderly name (grows.has has) rest

end

/-! ## Operations -/

instance : (request : Request) → Naming request.Answer
  | .call .. | .read .. => inferInstanceAs (Naming Value)
  | .assign .. | .construct .. => inferInstanceAs (Naming Unit)

instance : (operation : Operation) → Naming operation.Answer
  | .ofRequest request => inferInstanceAs (Naming request.Answer)
  | .create .. => inferInstanceAs (Naming InstanceId)
  | .wrap _ | .unmarshal .. | .dispatch .. | .eval _ => inferInstanceAs (Naming Value)
  | .callHook .. => inferInstanceAs (Naming (Option Value))

/-- The arguments of a request exist. -/
def World.HasRequest (world : World) : Request → Prop
  | .call _ args _ => world.Has args
  | .read .. => True
  | .assign _ _ value => world.Has value
  | .construct id _ args => world.Has id ∧ world.Has args

/-- The arguments of an operation exist. -/
def World.HasOperation (world : World) : Operation → Prop
  | .ofRequest request => world.HasRequest request
  | .create _ _ args => world.Has args
  | .wrap host => world.Has host
  | .unmarshal host _ => world.Has host
  | .dispatch _ _ operands => world.Has operands
  | .callHook _ _ _ args => world.Has args
  | .eval _ => True

/-- An operation on things that exist leads from order to order, and what it answers exists. -/
theorem Operation.run_orderly {perform : Perform} (nested : perform.Orderly) {world : World}
    (operation : Operation) (has : world.HasOperation operation) :
    OrderlyAt (operation.run perform) world := by
  cases operation with
  | ofRequest request =>
      cases request with
      | call callable args context => exact nested.call callable context has
      | read scope name => exact nested.read scope name
      | assign scope name value => exact nested.assign scope name has
      | construct id options args => exact nested.construct options has.1 has.2
  | create className options args =>
      exact .bind requireAssembly_orderly fun _ _ grows _ =>
        createInstance_orderly nested className options (grows.has has)
  | wrap host =>
      exact .bind requireAssembly_orderly fun _ _ grows _ =>
        wrapHost_orderly nested (grows.has has)
  | unmarshal host type =>
      exact .bind requireAssembly_orderly fun _ _ grows _ =>
        fromHost_orderly nested type (grows.has has)
  | dispatch context operator operands =>
      exact .bind requireAssembly_orderly fun _ _ grows _ =>
        operate_orderly nested context operator (grows.has has)
  | callHook context id key args =>
      exact .bind requireAssembly_orderly fun _ _ grows _ =>
        hook_orderly nested context id key (grows.has has)
  | eval expr => exact evaluate_orderly nested has_none expr

/-! ## Commands -/

/-- What a host program can ask of a living assembly, and of the things made from it. -/
inductive Command where
  | define (spec : ClassSpec)
  | defineFunction (spec : FunctionDecl String)
  | validate
  /-- Asks what stands along the chain of a class. -/
  | doesExtend (id : ClassId) (name : String)
  | describeClass (id : ClassId)
  | metaTable (id : ClassId)
  | isTypeCompatible (target source : ValueType)
  | accepts (type : ValueType) (value : Value)
  | newClassRef (name : String) (target : Option ClassId)
  | resolveClassRef (reference : ClassRefId)
  /-- Whatever runs bodies, within a budget for nested requests. -/
  | operate (budget : Nat) (operation : Operation)
  | allocate (className : String) (options : CreateOptions)
  | drop (id : InstanceId)
  | openScope (id : InstanceId) (view : Viewpoint)
  | newStore (attached : Bool)
  | declare (scope : Scope) (name : String) (type : ValueType)
  | declareHosted (scope : Scope) (name : String) (type : ValueType) (accessor : Accessor)
      (reference : ReferenceId)
  | status (scope : Scope) (name : String)
  | annotate (scope : Scope) (name : String) (annotations : List InstanceId)
  | annotations (budget : Nat) (scope : Scope) (name : String)
  | marshal (value : Value) (type : ValueType)
  | newHost (object : HostObject)
  | newReference (reference : HostReference)
  | bindReference (reference : ReferenceId) (host : HostId)
  | resolveLevel (id : InstanceId) (level : Nat)
  | newContext (limit : Option Nat)
  | holdFrame (name : String) (context : ContextId) (frame : Frame)
  | releaseFrame (name : String)
  | save (name : String) (binding : Binding)
  | takeLog

namespace Command

/-- The state after a command, whatever the command ends in. -/
def after (world : World) : Command → World
  | .define spec => (Session.define spec world).2
  | .defineFunction spec => (Session.defineFunction spec world).2
  | .validate => (Session.validate world).2
  | .doesExtend id name => (Session.doesExtend id name world).2
  | .describeClass id => (Session.describeClass id world).2
  | .metaTable id => (Session.metaTable id world).2
  | .isTypeCompatible target source => (Session.isTypeCompatible target source world).2
  | .accepts type value => (Exec.accepts type value world).2
  | .newClassRef name target => (Session.newClassRef name target world).2
  | .resolveClassRef reference => (Session.resolveClassRef reference world).2
  | .operate budget operation => (operation.run (performUpTo budget) world).2
  | .allocate className options => (Session.allocate className options world).2
  | .drop id => (Session.drop id world).2
  | .openScope id view => (openScope? id view world).2
  | .newStore attached => (Exec.newStore (.free attached) world).2
  | .declare scope name type => (ScriptObjects.declare scope name (.unassigned type) world).2
  | .declareHosted scope name type accessor reference =>
      (ScriptObjects.declare scope name (.hosted type accessor reference) world).2
  | .status scope name => (Session.status scope name world).2
  | .annotate scope name created => (ScriptObjects.annotate name created scope world).2
  | .annotations budget scope name => (annotationsOf (performUpTo budget) name scope world).2
  | .marshal value type => (Session.marshal value type world).2
  | .newHost object => (Exec.newHost object world).2
  | .newReference reference => (Exec.newReference reference world).2
  | .bindReference reference host => world.bindReference reference host
  | .resolveLevel id level => (Session.resolveLevel id level world).2
  | .newContext limit => (Exec.newContext limit world).2
  | .holdFrame name context frame => (Session.holdFrame name context frame world).2
  | .releaseFrame name => (Session.releaseFrame name world).2
  | .save name binding => world.bind name binding
  | .takeLog => (Session.takeLog world).2

/-- The arguments of a command exist. -/
def Has (world : World) : Command → Prop
  | .newClassRef _ target => world.Has target
  | .operate _ operation => world.HasOperation operation
  | .annotate _ _ created => world.Has created
  | .marshal value _ => world.Has value
  | .newHost object => world.Has object
  | .newReference reference => world.Has reference
  | .bindReference _ host => world.Has host
  | .save _ binding => world.Has binding
  | _ => True

end Command

theorem Exec.OrderlyAt.advances {α : Type} [Naming α] {run : Exec α} {world : World}
    (orderly : OrderlyAt run world) : world.Advances (run world).2 :=
  fun order => ⟨(orderly order).1, (orderly order).2.1⟩

section

variable {world : World}

theorem registering_advances {request : Registering Unit} (atomic : Atomic request)
    (accepted : ∀ after, request.run world = (.ok (), after) → world.Advances after) :
    world.Advances (Session.registering request world).2 := by
  obtain same | ⟨_, ok⟩ := registering_cases atomic world
  · rw [same]
    exact .refl world
  · exact accepted _ ok

theorem validate_advances : world.Advances (Session.validate world).2 := by
  cases alive : world.alive with
  | false =>
      rw [show (Session.validate world).2 = world from registering_of_dropped alive validate]
      exact .refl world
  | true =>
      rw [validate_of_alive alive]
      exact .follows (validate_onlyFollows world)

/-- Every command on things that exist leads from order to order. -/
theorem Command.advances (command : Command) (has : command.Has world) :
    world.Advances (command.after world) := by
  cases command with
  | define spec => exact registering_advances (define_atomic spec) fun after ok => .define ok
  | defineFunction spec =>
      exact registering_advances (defineFunction_atomic spec) fun after ok => .defineFunction ok
  | validate => exact validate_advances
  | doesExtend id name | describeClass id => exact .resolveBases world _
  | metaTable id => exact .keepMetaTable world id
  | isTypeCompatible target source =>
      exact OrderlyAt.advances (.bind requireAssembly_orderly fun _ after _ _ =>
        .of_get (.bind (.change (.resolveBases after _)) fun _ _ _ _ => .pure trivial))
  | accepts type value => exact .resolveBases world _
  | newClassRef name target => exact .newClassRef name has
  | resolveClassRef reference =>
      exact OrderlyAt.advances (.bind requireAssembly_orderly fun _ _ _ _ =>
        resolveRef?_orderly reference)
  | operate budget operation =>
      exact (operation.run_orderly (performUpTo_orderly budget) has).advances
  | allocate className options =>
      refine OrderlyAt.advances (.bind requireAssembly_orderly fun _ after _ _ =>
        .given fun order => .of_get ?_)
      split
      · next id found =>
          have registered : after.Has id := order.findClass? className id found
          exact newInstance_orderly registered options
      · exact .throw _
  | drop id =>
      have dies : world.Advances
          (world.withObject id fun object => { object with alive := false }) :=
        .withObject id (fun _ => rfl) (fun _ _ same => same) fun _ known => known
      exact dies.trans (.setBindings fun entry member => List.mem_of_mem_filter member)
  | openScope id view => exact (openScope?_orderly id view).advances
  | newStore attached => exact .pushStore attached
  | declare scope name type => exact (declare_orderly (fits_unassigned type) scope).advances
  | declareHosted scope name type accessor reference =>
      exact (declare_orderly (fits_hosted type accessor reference) scope).advances
  | status scope name =>
      have asked : OrderlyAt (Session.status scope name) world :=
        .of_get (.bind (isAssigned_orderly name scope) fun _ _ _ _ => .pure ⟨trivial, trivial⟩)
      exact asked.advances
  | annotate scope name annotations => exact (annotate_orderly name has scope).advances
  | annotations budget scope name =>
      exact (annotationsOf_orderly (performUpTo_orderly budget) name scope).advances
  | marshal value type =>
      exact OrderlyAt.advances (.bind requireAssembly_orderly fun _ _ grows _ =>
        toHost_orderly (grows.has has) type)
  | newHost object => exact .pushHost has
  | newReference reference => exact .pushReference has
  | bindReference reference host => exact .bindReference reference has
  | resolveLevel id level => exact (levelHost_orderly ⟨id, level⟩).advances
  | newContext limit => exact .pushContext _
  | holdFrame name context frame =>
      refine OrderlyAt.advances (.of_get ?_)
      split
      · exact .throw _
      · refine .bind (.change ?_) fun _ _ _ _ => .pure trivial
        dsimp only
        split <;> exact .setFrames _ _
  | releaseFrame name =>
      refine OrderlyAt.advances (.of_get ?_)
      split
      · exact .pure trivial
      · exact .bind (.change (.setFrames _ _)) fun _ _ _ _ => .pure trivial
  | save name binding => exact .bind name has
  | takeLog => exact .setLog []

end

/-! ## Sessions -/

/-- The second state follows the first by commands on things that exist. -/
inductive History : World → World → Prop
  | start (world : World) : History world world
  | next {first second : World} (before : History first second) (command : Command)
      (has : command.Has second) : History first (command.after second)

theorem History.advances {first second : World} (history : History first second) :
    first.Advances second := by
  induction history with
  | start => exact .refl _
  | next _ command has ih => exact ih.trans (command.advances has)

/-- A session starts in order: there is nothing yet. -/
theorem inOrder_initial (config : Config) (marshaling : MarshalRules) :
    (World.initial config marshaling).InOrder := by
  have stores : ∀ id : StoreId,
      (∃ tier, (World.initial config marshaling).store id = .empty (.root tier)) ∨
        (World.initial config marshaling).store id = default := by
    rintro ⟨_ | _ | _ | index⟩
    · exact .inl ⟨.global, rfl⟩
    · exact .inl ⟨.internal, rfl⟩
    · exact .inl ⟨.localOnly, rfl⟩
    · exact .inr rfl
  refine ⟨fun id inside => absurd inside (Nat.not_lt_zero _), ?_⟩
  refine ⟨fun _ => has_none, ⟨fun _ => has_none, has_nil, fun _ => has_none⟩,
    fun _ _ member => (List.not_mem_nil member).elim, fun _ => has_none, fun _ => trivial,
    fun _ => has_none, fun _ => has_none,
    fun _ member => (List.not_mem_nil member).elim, fun id => ?_, fun id => ?_⟩
  · obtain ⟨tier, same⟩ | same := stores id <;> rw [same] <;> trivial
  · obtain ⟨tier, same⟩ | same := stores id <;> rw [same] <;>
      exact fun _ member => (List.not_mem_nil member).elim

/-- In every state of a session, a slot that keeps a value keeps one that its type accepts
there, and no integer if its type is that of floats; and at any later time the slot is still there
and has the same type. -/
theorem stored_values_accepted {config : Config} {marshaling : MarshalRules} {world later : World}
    (begins : History (.initial config marshaling) world) (continues : History world later) :
    (∀ store, ∀ entry ∈ (world.store store).slots, ∀ value,
      entry.2.content = .script (some value) →
        world.accepts entry.2.type value = true ∧
          ∀ word, value = .int word → entry.2.type ≠ .float) ∧
    ∀ store name slot, (world.store store).slot? name = some slot →
      ∃ kept, (later.store store).slot? name = some kept ∧ kept.type = slot.type := by
  obtain ⟨_, order⟩ := begins.advances (inOrder_initial config marshaling)
  obtain ⟨grows, _⟩ := continues.advances order
  refine ⟨fun store entry member value kept => ?_, fun store name slot found => ?_⟩
  · have fits := order.holds.slots store entry member
    refine ⟨fits.accepted value kept, fun word same => ?_⟩
    subst same
    exact fits.widened word kept
  · obtain ⟨kept, there, persists⟩ := grows.slots store name slot found
    exact ⟨kept, there, persists.type⟩

/-- A class of elements that refer to a next one. -/
def elementSpec : ClassSpec :=
  ⟨"Element", .ordinary, none, [⟨"next", .global, .object "Element", .script none, [], none⟩], [],
    [], none, none⟩

/-- A session with an element. -/
def elementCreated : World :=
  (Command.operate 9 (.create "Element" .standard [])).after
    ((Command.define elementSpec).after (.initial default .standard))

/-- The element is made its own next. -/
def elementKnotted : World :=
  (Command.operate 9 (.ofRequest (.assign (.store ⟨3⟩) "next" (.object ⟨0⟩)))).after elementCreated

theorem stored_values_accepted_element :
    (elementKnotted.store ⟨3⟩).slots =
      [("next", ⟨.object "Element", .script (some (.object ⟨0⟩)), [], false⟩)] ∧
    elementKnotted.accepts (.object "Element") (.object ⟨0⟩) = true := by
  have slots : (elementKnotted.store ⟨3⟩).slots =
      [("next", ⟨.object "Element", .script (some (.object ⟨0⟩)), [], false⟩)] := by
    decide +kernel
  have created : History (.initial default .standard) elementCreated :=
    .next (.next (.start _) (.define elementSpec) trivial)
      (.operate 9 (.create "Element" .standard [])) has_nil
  have inside : 0 < elementCreated.instances.size := by decide +kernel
  have begins : History (.initial default .standard) elementKnotted :=
    .next created (.operate 9 (.ofRequest (.assign (.store ⟨3⟩) "next" (.object ⟨0⟩)))) inside
  have typed := (stored_values_accepted begins (.start elementKnotted)).1 ⟨3⟩
  rw [slots] at typed
  exact ⟨slots, (typed _ List.mem_cons_self _ rfl).1⟩

end ScriptObjects
