import Mathlib.Data.List.Perm.Basic
import ScriptObjects.Proofs.Validity

/-!
# What declarations leave on record

A session declares classes and functions one after the other and has them validated at
the end.  Where every step is accepted, the registry holds exactly what was declared: the
classes in their order, each spelled like its specification, and the functions of the
assembly likewise.  Nothing that follows changes the spelling of an earlier declaration,
because references keep their names.
-/

namespace ScriptObjects

set_option autoImplicit false

open Exec

/-! ## The spelling of what stays -/

section

variable {refs later : Heap .classRef ClassRef}

theorem AnnotationUse.spelled_congr {use : AnnotationUse ClassRefId}
    (same : (later.get use.cls).name = (refs.get use.cls).name) :
    use.spelled later = use.spelled refs :=
  congrArg (AnnotationUse.mk · use.args) same

theorem AnnotationUse.map_spelled_congr {uses : List (AnnotationUse ClassRefId)}
    (same : ∀ use ∈ uses, (later.get use.cls).name = (refs.get use.cls).name) :
    uses.map (AnnotationUse.spelled later) = uses.map (AnnotationUse.spelled refs) :=
  List.map_congr_left fun use member => AnnotationUse.spelled_congr (same use member)

theorem FunctionDecl.spelled_congr {function : Function}
    (same : ∀ use ∈ function.annotations, (later.get use.cls).name = (refs.get use.cls).name) :
    FunctionDecl.spelled later function = FunctionDecl.spelled refs function :=
  congrArg (FunctionDecl.mk function.name function.access function.role function.returns
    function.body · function.owner) (AnnotationUse.map_spelled_congr same)

theorem FieldDecl.spelled_congr {field : Field}
    (same : ∀ use ∈ field.annotations, (later.get use.cls).name = (refs.get use.cls).name) :
    FieldDecl.spelled later field = FieldDecl.spelled refs field :=
  congrArg (FieldDecl.mk field.name field.access field.type field.storage · field.owner)
    (AnnotationUse.map_spelled_congr same)

/-- A class is spelled the same while the references it mentions keep their names. -/
theorem ClassDef.spelled_congr {cls : ClassDef}
    (base : ∀ reference, cls.base = some reference →
      (later.get reference).name = (refs.get reference).name)
    (uses : ∀ use ∈ cls.uses, (later.get use.cls).name = (refs.get use.cls).name) :
    cls.spelled later = cls.spelled refs := by
  have spelledBase : cls.base.map (fun reference => (later.get reference).name) =
      cls.base.map fun reference => (refs.get reference).name :=
    Option.map_congr fun reference based => base reference based
  have spelledFields : cls.fields.map (FieldDecl.spelled later) =
      cls.fields.map (FieldDecl.spelled refs) := by
    refine List.map_congr_left fun field member => FieldDecl.spelled_congr fun use used => ?_
    refine uses use (List.mem_append_left _ (List.mem_append_right _ ?_))
    exact List.mem_flatMap.mpr ⟨field, member, used⟩
  have spelledFunctions : cls.functions.map (FunctionDecl.spelled later) =
      cls.functions.map (FunctionDecl.spelled refs) := by
    refine List.map_congr_left fun function member => FunctionDecl.spelled_congr fun use used => ?_
    refine uses use (List.mem_append_right _ ?_)
    exact List.mem_flatMap.mpr ⟨function, member, used⟩
  have spelledUses : cls.annotations.map (AnnotationUse.spelled later) =
      cls.annotations.map (AnnotationUse.spelled refs) :=
    AnnotationUse.map_spelled_congr fun use used =>
      uses use (List.mem_append_left _ (List.mem_append_left _ used))
  unfold ClassDef.spelled
  rw [spelledBase, spelledFields, spelledFunctions, spelledUses]

end

/-- A function of the assembly as it is registered: without an owner. -/
def FunctionDecl.asRegistered (spec : FunctionDecl String) : FunctionDecl String :=
  { spec with owner := none }

namespace World

/-- A registered class, spelled out. -/
def spelling (world : World) (id : ClassId) : ClassSpec := (world.cls id).spelled world.classRefs

/-- A class keeps its spelling while it stays and references keep their names. -/
theorem spelling_congr {before after : World} (registered : before.Registered)
    (refers : before.RefersInside) {id : ClassId} (inside : id.index < before.classes.size)
    (same : after.cls id = before.cls id) (keeps : KeepsNames before.classRefs after.classRefs) :
    after.spelling id = before.spelling id := by
  unfold spelling
  rw [same]
  refine ClassDef.spelled_congr (fun reference based => ?_) fun use member => ?_
  · exact keeps.names reference (registered.baseRefs id reference based)
  · exact keeps.names use.cls (refers use (.inl ⟨id, (Heap.mem_handles _ _).mpr inside, member⟩))

/-- The functions of the assembly keep their spelling while references keep their names. -/
theorem spelledFunctions_congr {world : World} {refs : Heap .classRef ClassRef}
    (refers : world.RefersInside) (keeps : KeepsNames world.classRefs refs) :
    world.functions.map (FunctionDecl.spelled refs) =
      world.functions.map (FunctionDecl.spelled world.classRefs) :=
  List.map_congr_left fun function declared => FunctionDecl.spelled_congr fun use member =>
    keeps.names use.cls (refers use (.inr ⟨function, declared, member⟩))

/-! ## Records -/

/-- The registry holds exactly these classes and functions, in this order, and no meta-function of
any class was asked for. -/
structure Records (world : World) (classes : List ClassSpec)
    (functions : List (FunctionDecl String)) : Prop where
  reachable : Reachable world
  distinct : (functions.map FunctionDecl.name).Nodup
  functions : world.functions.map (FunctionDecl.spelled world.classRefs) =
    functions.map FunctionDecl.asRegistered
  classes : world.classes.handles.map world.spelling = classes.map ClassSpec.asRegistered
  tables : ∀ id, (world.cls id).metaTable = none

theorem records_initial (config : Config) (marshaling : MarshalRules) :
    (World.initial config marshaling).Records [] [] where
  reachable := .initial config marshaling
  distinct := List.nodup_nil
  functions := rfl
  classes := rfl
  tables _ := rfl

theorem define_gains {world after : World} {spec : ClassSpec}
    (ok : (World.define spec).run world = (.ok (), after)) :
    Adds spec world after ∧ Gains spec world after := by
  have adds := define_ok ok
  rw [run_define] at ok
  cases checked : world.checkClass spec with
  | error refusal =>
      rw [checked] at ok
      cases ok
  | ok =>
      rw [checked] at ok
      cases ok
      exact ⟨adds, adds.accepted.gains⟩

namespace Records

variable {world after : World} {classes : List ClassSpec} {functions : List (FunctionDecl String)}
  (records : world.Records classes functions)
include records

theorem define {spec : ClassSpec} (ok : (World.define spec).run world = (.ok (), after)) :
    after.Records (classes ++ [spec]) functions := by
  obtain ⟨adds, gains⟩ := define_gains ok
  obtain ⟨cls, pushed, spelled, _, table⟩ := gains.classes
  have refers := records.reachable.refersInside
  have keeps : KeepsNames world.classRefs after.classRefs := ⟨adds.refs, adds.names⟩
  have newest : after.cls world.classes.next = cls := by
    unfold World.cls
    rw [pushed, Heap.get_push_next]
  have earlier : world.classes.handles.map after.spelling =
      world.classes.handles.map world.spelling := by
    refine List.map_congr_left fun id known => ?_
    have inside := (Heap.mem_handles _ _).mp known
    exact spelling_congr records.reachable.sound.2.registered refers inside (adds.cls_old inside)
      keeps
  have same : after.functions = world.functions := by rw [adds.rest]
  refine ⟨records.reachable.enlist (.define ok), records.distinct, ?_, ?_, fun id => ?_⟩
  · rw [same, spelledFunctions_congr refers keeps, records.functions]
  · have added : after.spelling world.classes.next = spec.asRegistered := by
      unfold World.spelling
      rw [newest, spelled]
    rw [pushed, handles_push, List.map_append, earlier, records.classes, List.map_append,
      List.map_singleton, List.map_singleton, added]
  · by_cases new : id = world.classes.next
    · rw [new, newest, table]
    · rw [adds.cls_ne new, records.tables]

theorem defineFunction {spec : FunctionDecl String}
    (ok : (World.defineFunction spec).run world = (.ok (), after)) :
    after.Records classes (functions ++ [spec]) := by
  have reached := records.reachable.enlist (.defineFunction ok)
  have refers := records.reachable.refersInside
  rw [run_defineFunction] at ok
  split at ok
  · cases ok
  · next new =>
      cases ok
      let linked := (linkFunction none spec).run world.classRefs
      have keeps : KeepsNames world.classRefs linked.2 :=
        .of_linked (linkFunction_appends none spec world.classRefs)
      have spelled : FunctionDecl.spelled linked.2 linked.1 = spec.asRegistered :=
        linkFunction_spells none spec world.classRefs linked.2 (.refl _)
      have names : world.functions.map FunctionDecl.name = functions.map FunctionDecl.name := by
        have spelledNames := congrArg (List.map FunctionDecl.name) records.functions
        rw [List.map_map, List.map_map] at spelledNames
        exact spelledNames
      refine ⟨reached, ?_, ?_, ?_, records.tables⟩
      · rw [List.map_append, List.map_singleton]
        refine List.nodup_append.mpr ⟨records.distinct, List.nodup_singleton _, ?_⟩
        rintro name known _ (_ | ⟨_, impossible⟩) rfl
        · rw [← names] at known
          obtain ⟨function, declared, same⟩ := List.mem_map.mp known
          refine new (List.find?_isSome.mpr ⟨function, declared, ?_⟩)
          simpa using same
        · cases impossible
      · show (world.functions ++ [linked.1]).map (FunctionDecl.spelled linked.2) = _
        rw [List.map_append, spelledFunctions_congr refers keeps, records.functions,
          List.map_singleton, spelled, List.map_append, List.map_singleton]
      · rw [← records.classes]
        refine List.map_congr_left fun id known => ?_
        exact spelling_congr records.reachable.sound.2.registered refers
          ((Heap.mem_handles _ _).mp known) rfl keeps

/-- Following references leaves the records as they are. -/
theorem follow (follows : Follows world after) : after.Records classes functions := by
  have names := follows.name
  have spelling : after.spelling = world.spelling := by
    funext id
    unfold World.spelling
    rw [follows.cls]
    exact ClassDef.spelled_congr (fun reference _ => names reference) fun use _ => names use.cls
  have same : after.functions = world.functions := by rw [follows.rest]
  refine ⟨.proceed records.reachable follows.proceeds, records.distinct, ?_, ?_, fun id => ?_⟩
  · rw [same, ← records.functions]
    exact List.map_congr_left fun function _ =>
      FunctionDecl.spelled_congr fun use _ => names use.cls
  · rw [follows.classes, spelling, records.classes]
  · rw [follows.cls, records.tables]

end Records

end World

/-! ## Declaring -/

/-- What a session declares. -/
inductive Declaration where
  | cls (spec : ClassSpec)
  /-- A function of the assembly. -/
  | function (spec : FunctionDecl String)

namespace Declaration

def class? : Declaration → Option ClassSpec
  | .cls spec => some spec
  | .function _ => none

def function? : Declaration → Option (FunctionDecl String)
  | .cls _ => none
  | .function spec => some spec

def register : Declaration → Exec (Except Refusal Unit)
  | .cls spec => Session.define spec
  | .function spec => Session.defineFunction spec

end Declaration

/-- The classes among some declarations. -/
def classesOf (declarations : List Declaration) : List ClassSpec :=
  declarations.filterMap Declaration.class?

/-- The functions of the assembly among some declarations. -/
def functionsOf (declarations : List Declaration) : List (FunctionDecl String) :=
  declarations.filterMap Declaration.function?

namespace World

/-- The declarations are accepted, one after the other. -/
inductive Registers : World → List Declaration → World → Prop
  | none (world : World) : Registers world [] world
  | next {world between last : World} {declaration : Declaration} {rest : List Declaration}
      (accepted : declaration.register world = (.done (.ok ()), between))
      (later : Registers between rest last) : Registers world (declaration :: rest) last

/-- A new assembly accepts the declarations, one after the other, and is valid then. -/
def Establishes (config : Config) (marshaling : MarshalRules) (declarations : List Declaration)
    (settled : World) : Prop :=
  ∃ complete, Registers (.initial config marshaling) declarations complete ∧
    Session.validate complete = (.done (.ok ()), settled)

theorem registering_ok {world after : World} (alive : world.alive = true)
    {request : Registering Unit} :
    Session.registering request world = (.done (.ok ()), after) ↔
      request.run world = (.ok (), after) := by
  rw [registering_of_alive alive]
  rcases request.run world with ⟨answer, later⟩
  constructor <;> (rintro ⟨⟩; rfl)

/-- What was declared is on record, behind what was there before. -/
theorem Registers.records {world last : World} {declarations : List Declaration}
    (registers : Registers world declarations last) {classes : List ClassSpec}
    {functions : List (FunctionDecl String)} (records : world.Records classes functions) :
    last.Records (classes ++ classesOf declarations) (functions ++ functionsOf declarations) := by
  induction registers generalizing classes functions with
  | none world =>
      rw [classesOf, functionsOf, List.filterMap_nil, List.filterMap_nil, List.append_nil,
        List.append_nil]
      exact records
  | @next world between last declaration rest accepted later ih =>
      have alive := records.reachable.sound.1
      cases declaration with
      | cls spec =>
          have more := ih (records.define ((registering_ok alive).mp accepted))
          rwa [List.append_assoc] at more
      | function spec =>
          have more := ih (records.defineFunction ((registering_ok alive).mp accepted))
          rwa [List.append_assoc functions] at more

theorem validate_eq_ok {world settled : World} (alive : world.alive = true)
    (ok : Session.validate world = (.done (.ok ()), settled)) :
    (validate.run world).1 = .ok () ∧ Follows world settled := by
  have follows := validate_onlyFollows world
  rw [validate_of_alive alive] at ok
  cases ends : validate.run world with
  | mk answer after =>
      rw [ends] at ok follows
      cases ok
      exact ⟨rfl, follows⟩

theorem Establishes.records {config : Config} {marshaling : MarshalRules}
    {declarations : List Declaration} {settled : World}
    (establishes : Establishes config marshaling declarations settled) :
    settled.Records (classesOf declarations) (functionsOf declarations) := by
  obtain ⟨complete, registers, valid⟩ := establishes
  have records := registers.records (records_initial config marshaling)
  rw [List.nil_append, List.nil_append] at records
  exact records.follow (validate_eq_ok records.reachable.sound.1 valid).2

end World

end ScriptObjects
