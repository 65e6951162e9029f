import ScriptObjects.Proofs.Inquiries
import ScriptObjects.Proofs.Members

/-!
# Registries that create nothing without a frame

Calls hold frames, but initializers create instances without any, and so do annotations, the hooks
that see reads and writes, and the wrapping of host objects.  A registry is frugal where none of
these creates anything: whatever is nested then is nested below a call.

What a request nests is told by the requests that are kept from it.  A machine that performs only
requests on a certain context, or only those of them that construct nothing, does for a frugal
registry what the machine does.  For the evaluation of an expression this is an induction on the
expression; the other activities follow in the order of the model.  In a frugal registry a lookup
does not nest any request, so it is the same over all machines.
-/

namespace ScriptObjects

set_option autoImplicit false

open Exec World

/-! ## Expressions that create -/

mutual

/-- Whether the evaluation of an expression can create an instance. -/
def Expr.creates : Expr → Bool
  | .create _ _ => true
  | .list items | .host _ items | .sequence items | .call _ items | .baseCall _ items
  | .operate _ items => Expr.anyCreates items
  | .table entries => Expr.anyEntryCreates entries
  | .bind _ value | .log value | .typeName value | .attempt value | .set _ value
  | .baseSet _ value | .member value _ _ => value.creates
  | .branch condition thenCase elseCase =>
      condition.creates || thenCase.creates || elseCase.creates
  | .index target key => target.creates || key.creates
  | .setIndex target key value => target.creates || key.creates || value.creates
  | .identical left right => left.creates || right.creates
  | .setMember target _ _ value => target.creates || value.creates
  | .null | .bool _ | .int _ | .float _ | .text _ | .var _ | .throw _ | .raiseHost _
  | .raiseType _ _ | .raiseNotDeclared _ | .arg _ | .args | .argCount | .this | .level
  | .trace | .depth | .get _ | .baseGet _ | .declare _ _ => false

/-- Whether the evaluation of one of several expressions can create an instance. -/
def Expr.anyCreates : List Expr → Bool
  | [] => false
  | expr :: rest => expr.creates || Expr.anyCreates rest

/-- Whether the evaluation of an entry of a table can create an instance. -/
def Expr.anyEntryCreates : List (Expr × Expr) → Bool
  | [] => false
  | (key, value) :: rest => key.creates || value.creates || Expr.anyEntryCreates rest

end

/-! ## Requests that stay on a context -/

/-- Whether a request calls on a certain context, or constructs on it where that is wanted. -/
def Request.staysOn (on : Option ContextId) (creating : Bool) : Request → Bool
  | .call _ _ context => on = some context
  | .read .. | .assign .. => true
  | .construct _ options _ => creating && options.context = on

/-- Performs the requests that stay on a context; others end without an answer. -/
def Perform.keptOn (on : Option ContextId) (creating : Bool) (perform : Perform) : Perform :=
  perform.barring fun inquiry => inquiry.request.staysOn on creating = false

theorem Perform.Leads.keptOn {perform : Perform} (leads : perform.Leads) (on : Option ContextId)
    (creating : Bool) : Perform.Leads (perform.keptOn on creating) :=
  fun may opened request isOpen world permits opens =>
    Perform.barring_end _ (motive := fun last => Evolves may opened world last) (.refl world)
      (leads may opened request isOpen world permits opens)

section

variable {on : Option ContextId} {context : ContextId} {creating : Bool} {perform : Perform}

theorem Perform.keptOn_of_stays {request : Request}
    (stays : request.staysOn on creating = true) :
    perform.keptOn on creating request = perform request :=
  funext fun _ => barring_of_clear _ (by simp [stays])

@[simp]
theorem Perform.keptOn_read (scope : Scope) (name : String) :
    perform.keptOn on creating (.read scope name) = perform (.read scope name) :=
  keptOn_of_stays rfl

@[simp]
theorem Perform.keptOn_assign (scope : Scope) (name : String) (value : Value) :
    perform.keptOn on creating (.assign scope name value) = perform (.assign scope name value) :=
  keptOn_of_stays rfl

@[simp]
theorem Perform.keptOn_call (callable : CallableId) (args : List Value) :
    perform.keptOn (some context) creating (.call callable args context) =
      perform (.call callable args context) :=
  keptOn_of_stays (decide_eq_true rfl)

@[simp]
theorem Perform.keptOn_construct (id : InstanceId) (flags : CreateFlags) (args : List Value) :
    perform.keptOn on true (.construct id ⟨flags, on⟩ args) =
      perform (.construct id ⟨flags, on⟩ args) :=
  keptOn_of_stays (decide_eq_true rfl)

/-! ## Dispatch -/

theorem hook_keptOn (id : InstanceId) (key : MetaKey) (args : List Value) :
    hook (perform.keptOn (some context) creating) context id key args =
      hook perform context id key args := by
  simp only [hook, Perform.keptOn_read, Perform.keptOn_call]

theorem unaryHook_keptOn (key : MetaKey) (operand : Value) :
    unaryHook (perform.keptOn (some context) creating) context key operand =
      unaryHook perform context key operand := by
  simp only [unaryHook, hook_keptOn]

theorem binaryHook_keptOn (key : MetaKey) (left right : Value) :
    binaryHook (perform.keptOn (some context) creating) context key left right =
      binaryHook perform context key left right := by
  simp only [binaryHook, hook_keptOn]

theorem callValue_keptOn (target : Value) (args : List Value) :
    callValue (perform.keptOn (some context) creating) context target args =
      callValue perform context target args := by
  simp only [callValue, hook_keptOn, Perform.keptOn_call]

theorem operate_keptOn (operator : Operator) (operands : List Value) :
    operate (perform.keptOn (some context) creating) context operator operands =
      operate perform context operator operands := by
  simp only [operate, arithmetic, negate, concat, stringify, lengthOf, equals, less, lessEqual,
    iterate, binaryHook_keptOn, unaryHook_keptOn, callValue_keptOn]

theorem createInstance_keptOn (className : String) (flags : CreateFlags) (args : List Value) :
    createInstance (perform.keptOn on true) className ⟨flags, on⟩ args =
      createInstance perform className ⟨flags, on⟩ args := by
  simp only [createInstance, instantiate, Perform.keptOn_construct]

end

theorem runningCall_congr {α : Type} {site : Option Invocation} {next other : Invocation → Exec α}
    (same : ∀ call ∈ site, next call = other call) :
    (runningCall site >>= next) = (runningCall site >>= other) := by
  cases site with
  | none => rfl
  | some call => exact same call rfl

/-! ## Evaluation -/

section

variable {on : Option ContextId} {creating : Bool} {perform : Perform} {site : Option Invocation}

mutual

theorem evaluate_keptOn (sited : ∀ call ∈ site, on = some call.context) : (expr : Expr) →
    (expr.creates = true → creating = true) →
    evaluate (perform.keptOn on creating) site expr = evaluate perform site expr
  | .null, _ | .bool _, _ | .int _, _ | .float _, _ | .text _, _ | .var _, _ | .throw _, _
  | .raiseHost _, _ | .raiseType _ _, _ | .raiseNotDeclared _, _ | .arg _, _ | .args, _
  | .argCount, _ | .this, _ | .level, _ | .trace, _ | .depth, _ | .declare _ _, _ => by
      simp only [evaluate]
  | .list items, may | .host _ items, may | .sequence items, may => by
      simp only [evaluate, evaluateAll_keptOn sited items may]
  | .table entries, may => by
      simp only [evaluate, evaluateEntries_keptOn sited .empty entries may]
  | .bind _ value, may | .log value, may | .typeName value, may | .attempt value, may
  | .member value _ _, may => by
      simp only [evaluate, evaluate_keptOn sited value may, Perform.keptOn_read]
  | .branch condition thenCase elseCase, may => by
      simp only [Expr.creates, Bool.or_eq_true, or_imp] at may
      simp only [evaluate, evaluate_keptOn sited condition may.1.1,
        evaluate_keptOn sited thenCase may.1.2, evaluate_keptOn sited elseCase may.2]
  | .index left right, may | .identical left right, may => by
      simp only [Expr.creates, Bool.or_eq_true, or_imp] at may
      simp only [evaluate, evaluate_keptOn sited left may.1, evaluate_keptOn sited right may.2]
  | .setIndex target key value, may => by
      simp only [Expr.creates, Bool.or_eq_true, or_imp] at may
      simp only [evaluate, evaluate_keptOn sited target may.1.1, evaluate_keptOn sited key may.1.2,
        evaluate_keptOn sited value may.2]
  | .setMember target _ _ value, may => by
      simp only [Expr.creates, Bool.or_eq_true, or_imp] at may
      simp only [evaluate, evaluate_keptOn sited target may.1, evaluate_keptOn sited value may.2,
        Perform.keptOn_assign]
  | .get _, _ | .baseGet _, _ => by
      simp only [evaluate, Perform.keptOn_read]
  | .set _ value, may | .baseSet _ value, may => by
      simp only [evaluate, evaluate_keptOn sited value may, Perform.keptOn_assign]
  | .call _ args, may | .baseCall _ args, may => by
      unfold evaluate
      refine runningCall_congr fun call inside => ?_
      simp only [evaluateAll_keptOn sited args may, Perform.keptOn_read]
      simp only [sited call inside, callValue_keptOn]
  | .create className args, may => by
      unfold evaluate
      refine runningCall_congr fun call inside => ?_
      simp only [evaluateAll_keptOn sited args fun _ => may rfl]
      simp only [may rfl, sited call inside, createInstance_keptOn]
  | .operate operator args, may => by
      unfold evaluate
      refine runningCall_congr fun call inside => ?_
      simp only [evaluateAll_keptOn sited args may]
      simp only [sited call inside, operate_keptOn]

theorem evaluateAll_keptOn (sited : ∀ call ∈ site, on = some call.context) : (exprs : List Expr) →
    (Expr.anyCreates exprs = true → creating = true) →
    evaluateAll (perform.keptOn on creating) site exprs = evaluateAll perform site exprs
  | [], _ => by
      simp only [evaluateAll]
  | expr :: rest, may => by
      simp only [Expr.anyCreates, Bool.or_eq_true, or_imp] at may
      simp only [evaluateAll, evaluate_keptOn sited expr may.1, evaluateAll_keptOn sited rest may.2]

theorem evaluateEntries_keptOn (sited : ∀ call ∈ site, on = some call.context) (table : Table) :
    (entries : List (Expr × Expr)) →
    (Expr.anyEntryCreates entries = true → creating = true) →
    evaluateEntries (perform.keptOn on creating) site table entries =
      evaluateEntries perform site table entries
  | [], _ => by
      simp only [evaluateEntries]
  | (key, value) :: rest, may => by
      simp only [Expr.anyEntryCreates, Bool.or_eq_true, or_imp] at may
      simp only [evaluateEntries, evaluate_keptOn sited key may.1.1,
        evaluate_keptOn sited value may.1.2,
        fun table => evaluateEntries_keptOn sited table rest may.2]

end

end

theorem sited_some (call : Invocation) :
    ∀ inside ∈ some call, some call.context = some inside.context := by
  rintro _ ⟨⟩
  rfl

/-! ## Frugal registries -/

/-- A field without annotations, whose initializer creates nothing. -/
structure Field.Frugal (field : Field) : Prop where
  unannotated : field.annotations = []
  initializer : ∀ initializer, field.storage = .script (some initializer) →
    initializer.creates = false

namespace World

/-- Nothing is created but by the bodies of functions, and lookups nest nothing: nothing is
annotated, no initializer creates, no class describes a type of host objects, and none has hooks
that see reads or writes. -/
structure Frugal (world : World) : Prop where
  functions : ∀ function, world.Declares function → function.annotations = []
  classes : ∀ id, (world.cls id).annotations = []
  fields : ∀ id, ∀ field ∈ (world.cls id).fields, field.Frugal
  hosts : ∀ type, world.classForHost? type = none
  hooks : ∀ id key, key = .onRead ∨ key = .onWrite → (world.metaTable id).get? key = none

theorem Frugal.later {may : String → Prop} {opened : InstanceId → Prop} {before after : World}
    (frugal : before.Frugal) (evolves : Evolves may opened before after) : after.Frugal where
  functions function declares := frugal.functions function (declares.earlier evolves.continues)
  classes id := by
    rw [evolves.continues.hierarchy.ask ClassDef.annotations fun _ => rfl]
    exact frugal.classes id
  fields id field member := by
    rw [evolves.continues.hierarchy.ask ClassDef.fields fun _ => rfl] at member
    exact frugal.fields id field member
  hosts type := (evolves.continues.hierarchy.classForHost? type).trans (frugal.hosts type)
  hooks id key either := by
    rw [evolves.metaTable id]
    exact frugal.hooks id key either

theorem Frugal.withContext {world : World} (frugal : world.Frugal) (context : ContextId)
    (change : Context → Context) : (world.withContext context change).Frugal where
  functions := frugal.functions
  classes := frugal.classes
  fields := frugal.fields
  hosts := frugal.hosts
  hooks id key either := by
    have same : (world.withContext context change).metaTable id = world.metaTable id :=
      (Continues.withContext world context change).hierarchy.metaTable rfl
    rw [same]
    exact frugal.hooks id key either

end World

/-! ## Checked registries -/

/-- Whether a field is unannotated, with an initializer that creates nothing. -/
def Field.checkFrugal (field : Field) : Bool :=
  field.annotations.isEmpty &&
    match field.storage with
    | .script (some initializer) => !initializer.creates
    | _ => true

theorem Field.frugal_of_check {field : Field} (checked : field.checkFrugal = true) :
    field.Frugal := by
  unfold checkFrugal at checked
  rw [Bool.and_eq_true, List.isEmpty_iff] at checked
  refine ⟨checked.1, fun initializer held => ?_⟩
  have initializes := checked.2
  rw [held] at initializes
  exact (Bool.not_eq_true' _).mp initializes

/-- Whether a class is unannotated and has frugal fields only, and no hook that sees reads or writes
among its functions or in the table it has been asked for. -/
def ClassDef.checkFrugal (cls : ClassDef) : Bool :=
  cls.annotations.isEmpty && cls.fields.all Field.checkFrugal &&
    cls.functions.all (fun function => function.annotations.isEmpty) &&
    [MetaKey.onRead, .onWrite].all fun key =>
      cls.functions.all (fun function => function.name ≠ key.methodName) &&
        cls.metaTable.all fun table => (table.get? key).isNone

namespace World

/-- Whether all classes are frugal, none describes host objects and no function is annotated. -/
def checkFrugal (world : World) : Bool :=
  world.functions.all (fun function => function.annotations.isEmpty) &&
    world.registry.hosts.isEmpty && world.classes.toList.all ClassDef.checkFrugal

theorem frugal_of_check {world : World} (checked : world.checkFrugal = true) : world.Frugal := by
  unfold checkFrugal at checked
  simp only [Bool.and_eq_true, List.all_eq_true, List.isEmpty_iff] at checked
  obtain ⟨⟨functions, hosts⟩, classes⟩ := checked
  have each : ∀ id, (world.cls id).checkFrugal = true :=
    Heap.get_of_all classes (by decide)
  unfold ClassDef.checkFrugal at each
  simp only [Bool.and_eq_true, List.all_eq_true, List.isEmpty_iff, decide_eq_true_eq] at each
  refine ⟨?_, fun id => (each id).1.1.1, fun id field member => ?_, fun type => ?_, ?_⟩
  · rintro function (global | ⟨id, member⟩)
    · exact functions function global
    · exact (each id).1.2 function member
  · exact Field.frugal_of_check ((each id).1.1.2 field member)
  · unfold classForHost?
    rw [hosts]
    rfl
  · intro id key either
    have seen : key ∈ [MetaKey.onRead, .onWrite] := by simpa using either
    unfold metaTable
    cases asked : (world.cls id).metaTable with
    | some table =>
        have none := ((each id).2 key seen).2
        rw [asked] at none
        exact Option.isNone_iff_eq_none.mp none
    | none =>
        have nowhere : ¬ world.DeclaresAlong (world.ancestors id) key := by
          rintro ⟨member, _, function, declared, named⟩
          exact ((each member).2 key seen).1 function declared named
        rw [Option.getD_none, get?_buildMetaTable]
        split
        · exact Option.not_isSome_iff_eq_none.mp fun some => nowhere ((metaLink?_isSome ..).mp some)
        · rfl

end World

/-! ## Lookups nest nothing -/

section

variable (perform other : Perform) {world : World} (frugal : world.Frugal)
include frugal

theorem intercept_frugal {key : MetaKey} (either : key = .onRead ∨ key = .onWrite) (name : String)
    (value : Value) (annotations : List InstanceId) :
    intercept other key name value annotations world =
      intercept perform key name value annotations world := by
  induction annotations generalizing world with
  | nil => rfl
  | cons annotation rest ih =>
      have missing := frugal.hooks (world.object annotation).cls key either
      have kept : Evolves (fun _ => True) (fun _ => True) world
          (world.keepMetaTable (world.object annotation).cls) :=
        metaLink?_leads (world.object annotation).cls key world world.permits_all fun _ _ => trivial
      unfold intercept
      rw [bind_of_done _ (hook_of_none other _ _ missing),
        bind_of_done _ (hook_of_none perform _ _ missing)]
      exact ih (frugal.later kept)

theorem wrapHost_frugal (host : HostId) :
    wrapHost other host world = wrapHost perform host world := by
  unfold wrapHost
  rw [get_bind_apply, get_bind_apply, frugal.hosts]

theorem takeBack_frugal (type : ValueType) (host : HostId) (object : HostObject) :
    takeBack other type host object world = takeBack perform type host object world := by
  unfold takeBack
  cases object.directValue? with
  | some value => rfl
  | none =>
      dsimp only
      rw [bind_apply, bind_apply, wrapHost_frugal perform other frugal]

theorem fromHost_frugal (type : ValueType) (host : HostId) :
    fromHost other type host world = fromHost perform type host world := by
  have asked : hostObject host world = (.done (world.hosts.get host), world) := rfl
  have taken := takeBack_frugal perform other frugal type host (world.hosts.get host)
  unfold fromHost
  rw [bind_of_done _ asked, bind_of_done _ asked, get_bind_apply, get_bind_apply]
  by_cases selective : world.marshaling = .selective
  · rw [if_pos selective, if_pos selective]
    cases refusedCount? (world.hosts.get host) with
    | some name => rfl
    | none => exact taken
  · rw [if_neg selective, if_neg selective]
    exact taken

theorem installFunction_frugal {id : StoreId} {function : Function} {receiver : Option Receiver}
    (offered : world.offer? id function.name = some (function, receiver)) :
    installFunction other id function receiver world =
      installFunction perform id function receiver world := by
  have plain := frugal.functions function (offer?_declared offered).1
  cases taken : (world.store id).declares function.name with
  | true =>
      rw [installFunction_of_taken other receiver taken,
        installFunction_of_taken perform receiver taken]
  | false =>
      rw [installFunction_of_plain other receiver taken plain,
        installFunction_of_plain perform receiver taken plain]

end

/-- Over registries that create nothing without a frame, lookups do the same whatever is done about
requests. -/
theorem Perform.Leads.looksUpFrugally {may : String → Prop} {opened : InstanceId → Prop}
    {regime : Regime may opened} {perform : Perform} (leads : perform.Leads)
    (frugal : ∀ world, regime.holds world → world.Frugal) (other : Perform) :
    perform.LooksUpAlike regime other where
  hooks key either name value annotations world permits opens :=
    ⟨(intercept_tracks (leads.tracks may opened) key name value annotations).leads world permits
        opens,
      fun holds => .inl (intercept_frugal perform other (frugal world holds) either _ _ _)⟩
  hosts type host world permits opens :=
    ⟨(fromHost_tracks (leads.tracks may opened) type host).leads world permits opens,
      fun holds => .inl (fromHost_frugal perform other (frugal world holds) type host)⟩
  installs {world} _ _ _ offered permits opens :=
    ⟨(installFunction_tracksAt (leads.tracks may opened) offered).leads permits opens,
      fun holds => .inl (installFunction_frugal perform other (frugal world holds) offered)⟩

/-! ## Constructions nest no constructions -/

/-- What follows a run starts from a frugal registry, too. -/
theorem Exec.bind_frugal {α β : Type} {run : Exec α} {next later : α → Exec β} {world : World}
    (frugal : world.Frugal) (leads : Leads (fun _ => True) (fun _ => True) run)
    (same : ∀ result after, after.Frugal → next result after = later result after) :
    (run >>= next) world = (run >>= later) world := by
  have evolves := leads world world.permits_all fun _ _ => trivial
  rw [bind_apply, bind_apply]
  rcases ends : run world with ⟨outcome, after⟩
  rw [ends] at evolves
  cases outcome with
  | done result => exact same result after (frugal.later evolves)
  | failed fault => rfl
  | exhausted => rfl

theorem resolveConstructor_keptOn {on : Option ContextId} {creating : Bool} {perform : Perform}
    (id : InstanceId) :
    resolveConstructor (perform.keptOn on creating) id = resolveConstructor perform id := by
  simp only [resolveConstructor, Perform.keptOn_read]

section

variable {context : ContextId} {creating : Bool} {perform : Perform}

theorem preConstruct_keptOn (id : InstanceId) (args : List Value) (annotations : List InstanceId) :
    preConstruct (perform.keptOn (some context) creating) id context args annotations =
      preConstruct perform id context args annotations := by
  induction annotations generalizing args with
  | nil => rfl
  | cons annotation rest ih => simp only [preConstruct, hook_keptOn, ih]

theorem postConstruct_keptOn (id : InstanceId) (args : List Value)
    (annotations : List InstanceId) :
    postConstruct (perform.keptOn (some context) creating) id context args annotations =
      postConstruct perform id context args annotations := by
  induction annotations with
  | nil => rfl
  | cons annotation rest ih => simp only [postConstruct, hook_keptOn, ih]

theorem finishInstance_keptOn (id : InstanceId) (options : CreateOptions) (args : List Value)
    (className : String) :
    finishInstance (perform.keptOn (some context) creating) id options args className context =
      finishInstance perform id options args className context := by
  simp only [finishInstance, callConstructor, resolveConstructor_keptOn, preConstruct_keptOn,
    postConstruct_keptOn, Perform.keptOn_call]

/-- A frugal field is constructed without a construction. -/
theorem constructField_keptOn {field : Field} (frugal : field.Frugal) (className : String)
    (receiver : Receiver) (level : Level) (options : CreateOptions) :
    constructField (perform.keptOn (some context) creating) className receiver level options context
        field =
      constructField perform className receiver level options context field := by
  obtain ⟨name, access, type, storage, annotations, owner⟩ := field
  obtain ⟨unannotated, creates⟩ := frugal
  cases unannotated
  have filled : initializeField (perform.keptOn (some context) creating) receiver
        (level.declarations access) ⟨name, access, type, storage, [], owner⟩ context =
      initializeField perform receiver (level.declarations access)
        ⟨name, access, type, storage, [], owner⟩ context := by
    cases storage with
    | host accessor => rfl
    | script initializer =>
        cases initializer with
        | none => rfl
        | some initializer =>
            have sited := sited_some ⟨context, some receiver, []⟩
            have never := creates initializer rfl
            simp only [initializeField, Perform.keptOn_assign,
              evaluate_keptOn sited initializer fun does => absurd does (by simp [never])]
  simp only [constructField, List.isEmpty_nil, Bool.not_true, Bool.and_false, Bool.false_eq_true,
    if_false, filled]

theorem constructFields_keptOn {fields : List Field} (className : String) (receiver : Receiver)
    (level : Level) (options : CreateOptions) (frugal : ∀ field ∈ fields, field.Frugal) :
    constructFields (perform.keptOn (some context) creating) className receiver level options
        context fields =
      constructFields perform className receiver level options context fields := by
  induction fields with
  | nil => rfl
  | cons field rest ih =>
      simp only [constructFields, constructField_keptOn (frugal field List.mem_cons_self),
        ih fun other member => frugal other (List.mem_cons_of_mem field member)]

theorem constructLevel_keptOn {world : World} (frugal : world.Frugal) (id : InstanceId)
    (options : CreateOptions) (place : Nat) :
    constructLevel (perform.keptOn (some context) creating) id options context place world =
      constructLevel perform id options context place world := by
  cases sits : world.level? id place with
  | none => rw [constructLevel_of_none sits, constructLevel_of_none sits]
  | some level =>
      rw [constructLevel_of_some sits, constructLevel_of_some sits,
        constructFields_keptOn _ _ _ _ (frugal.fields level.cls)]
      simp only [annotateLevel, frugal.classes, List.isEmpty_nil, Bool.not_true, Bool.and_false,
        Bool.false_eq_true, if_false]

theorem constructLevels_keptOn (leads : Perform.Leads (perform.keptOn (some context) creating))
    {world : World} (frugal : world.Frugal) (id : InstanceId) (options : CreateOptions)
    (place : Nat) :
    constructLevels (perform.keptOn (some context) creating) id options context place world =
      constructLevels perform id options context place world := by
  induction place generalizing world with
  | zero => rfl
  | succ place ih =>
      let level := constructLevel (perform.keptOn (some context) creating) id options context place
      have leads : LeadsFreely level :=
        (constructLevel_tracks (leads.tracks _ _) trivial options context place).leads
      have rest : (level >>= fun _ => constructLevels (perform.keptOn (some context) creating) id
            options context place) world =
          (level >>= fun _ => constructLevels perform id options context place) world :=
        bind_frugal frugal leads fun _ _ frugal => ih frugal
      have here : level world = constructLevel perform id options context place world :=
        constructLevel_keptOn frugal id options place
      unfold constructLevels
      rw [rest, bind_apply, bind_apply, here]

end

/-! ## Calls -/

/-- What runs above a frame starts from a frugal registry, too. -/
theorem Exec.withFrame_frugal {α : Type} {context : ContextId} {frame : Frame}
    {run other : Exec α} {world : World} (frugal : world.Frugal)
    (same : ∀ after, after.Frugal → run after = other after) :
    withFrame context frame run world = withFrame context frame other world := by
  cases pushed : (world.context context).push? frame with
  | error limit => rw [withFrame_of_full _ pushed, withFrame_of_full _ pushed]
  | ok deeper =>
      rw [withFrame_of_pushed _ rfl pushed, withFrame_of_pushed _ rfl pushed,
        same _ (frugal.withContext context _)]

section

variable {context : ContextId} {perform : Perform}

theorem forwardToBase_keptOn {creating : Bool} (receiver : Receiver) (args : List Value) :
    forwardToBase (perform.keptOn (some context) creating) receiver args context =
      forwardToBase perform receiver args context := by
  simp only [forwardToBase, Perform.keptOn_read, Perform.keptOn_call]

theorem runBody_keptOn {world : World} (frugal : world.Frugal) (callable : Callable)
    (body : FunctionBody) (args : List Value) :
    runBody (perform.keptOn (some context) true) callable body args context world =
      runBody perform callable body args context world := by
  cases body with
  | script expr =>
      refine bind_frugal frugal (liveReceiver_leads callable) fun receiver after _ => ?_
      rw [evaluate_keptOn (sited_some ⟨context, receiver, args⟩) expr fun _ => rfl]
  | hostMethod method =>
      refine bind_frugal frugal (requireReceiver_leads callable) fun receiver _ frugal => ?_
      refine bind_frugal frugal (levelHost_leads receiver) fun host _ frugal => ?_
      refine bind_frugal frugal (marshalArguments_leads _ args) fun handed _ frugal => ?_
      refine bind_frugal frugal (method.invoke_leads host handed) fun result _ frugal => ?_
      exact fromHost_frugal perform _ frugal method.returns result
  | hostConstructor constructor => rfl
  | passThrough => simp only [runBody, forwardToBase_keptOn]
  | abstract => rfl

theorem callFunction_keptOn {world : World} (frugal : world.Frugal) (id : CallableId)
    (args : List Value) :
    callFunction (perform.keptOn (some context) true) id args context world =
      callFunction perform id args context world := by
  refine bind_frugal frugal requireAssembly_leads fun _ after frugal => ?_
  refine withFrame_frugal frugal fun inside frugal => ?_
  cases (after.callables.get id).function with
  | none => rfl
  | some function =>
      dsimp only
      rw [bind_apply, bind_apply, runBody_keptOn frugal]

end

end ScriptObjects
