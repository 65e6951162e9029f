import Mathlib.Data.List.Perm.Basic
import ScriptObjects.Proofs.Records

/-!
# Coherent declarations

Whether a registry can be established from some declarations is a question about the
declarations alone.  They are coherent when names, host types and members are distinct,
no chain of base names returns, and everything that is mentioned by name is there and
fits.  Nothing in this depends on the order of the declarations, although every single
definition is checked against the classes that happen to be registered already.
-/

namespace ScriptObjects

set_option autoImplicit false

open Relation (ReflTransGen TransGen)
open Exec

/-! ## Coherence -/

/-- All uses of annotations in the specification of a class. -/
def ClassSpec.uses (spec : ClassSpec) : List (AnnotationUse String) :=
  spec.annotations ++ spec.fields.flatMap FieldDecl.annotations ++
    spec.functions.flatMap FunctionDecl.annotations

/-- One of the classes has the first name and gives the second as its base. -/
def NamesBase (classes : List ClassSpec) (derived base : String) : Prop :=
  ∃ spec ∈ classes, spec.name = derived ∧ spec.base = some base

/-- The annotation is used by one of the classes or functions. -/
def Mentions (classes : List ClassSpec) (functions : List (FunctionDecl String))
    (use : AnnotationUse String) : Prop :=
  (∃ spec ∈ classes, use ∈ spec.uses) ∨ ∃ function ∈ functions, use ∈ function.annotations

/-- Two classes describe different host types, if any. -/
def HostsDiffer (one other : ClassSpec) : Prop :=
  ∀ host, one.described = some host → other.described ≠ some host

/-- The classes and functions fit together. -/
structure Coherent (classes : List ClassSpec) (functions : List (FunctionDecl String)) : Prop where
  names : (classes.map ClassSpec.name).Nodup
  hosts : classes.Pairwise HostsDiffer
  members : ∀ spec ∈ classes, spec.memberNames.Nodup
  acyclic : ∀ name, ¬ TransGen (NamesBase classes) name name
  bases : ∀ spec ∈ classes, ∀ name, spec.base = some name →
    ∃ base ∈ classes, base.name = name ∧ base.mode.inheritableBy spec.mode = true
  markers : ∀ use, Mentions classes functions use →
    ∃ marker ∈ classes, marker.name = use.cls ∧ marker.mode = .marker
  functions : (functions.map FunctionDecl.name).Nodup

theorem NamesBase.of_subset {some_ all : List ClassSpec} (among : some_ ⊆ all)
    {derived base : String} (names : NamesBase some_ derived base) : NamesBase all derived base := by
  obtain ⟨spec, member, rest⟩ := names
  exact ⟨spec, among member, rest⟩

theorem HostsDiffer.symm {one other : ClassSpec} (differ : HostsDiffer one other) :
    HostsDiffer other one :=
  fun host described also => differ host also described

/-- The order of the declarations does not matter for coherence. -/
theorem Coherent.perm {classes otherClasses : List ClassSpec}
    {functions otherFunctions : List (FunctionDecl String)} (coherent : Coherent classes functions)
    (perm : classes.Perm otherClasses) (also : functions.Perm otherFunctions) :
    Coherent otherClasses otherFunctions where
  names := (perm.map _).nodup_iff.mp coherent.names
  hosts := (perm.pairwise_iff HostsDiffer.symm).mp coherent.hosts
  members spec member := coherent.members spec (perm.mem_iff.mpr member)
  acyclic name returns :=
    coherent.acyclic name
      (TransGen.mono (fun _ _ names => names.of_subset perm.symm.subset) _ _ returns)
  bases spec member name based := by
    obtain ⟨base, there, fits⟩ := coherent.bases spec (perm.mem_iff.mpr member) name based
    exact ⟨base, perm.mem_iff.mp there, fits⟩
  markers use mentions := by
    obtain ⟨marker, there, fits⟩ := coherent.markers use <| mentions.imp
      (fun ⟨spec, member, used⟩ => ⟨spec, perm.mem_iff.mpr member, used⟩)
      fun ⟨function, member, used⟩ => ⟨function, also.mem_iff.mpr member, used⟩
    exact ⟨marker, perm.mem_iff.mp there, fits⟩
  functions := (also.map _).nodup_iff.mp coherent.functions

/-! ## Reading the record -/

/-- The annotations of a class that is spelled out are those of the class. -/
theorem ClassDef.uses_spelled (refs : Heap .classRef ClassRef) (cls : ClassDef) :
    (cls.spelled refs).uses = cls.uses.map (AnnotationUse.spelled refs) := by
  unfold ClassSpec.uses ClassDef.uses ClassDef.spelled
  rw [List.map_append, List.map_append, List.map_flatMap, List.map_flatMap, List.flatMap_map,
    List.flatMap_map]
  rfl

/-- The constructor that is supplied has no annotations. -/
theorem ClassSpec.uses_asRegistered (spec : ClassSpec) : spec.asRegistered.uses = spec.uses := by
  have fields : (spec.fields.map fun field => { field with owner := some (.ofClass spec.name) }).flatMap
      FieldDecl.annotations = spec.fields.flatMap FieldDecl.annotations :=
    List.flatMap_map ..
  have functions : (spec.completeFunctions.map fun function =>
      { function with owner := some (.ofClass spec.name) }).flatMap FunctionDecl.annotations =
      spec.functions.flatMap FunctionDecl.annotations := by
    refine (List.flatMap_map ..).trans ?_
    unfold ClassSpec.completeFunctions
    split
    · rw [List.flatMap_append]
      exact List.append_nil _
    · rfl
  unfold ClassSpec.uses ClassSpec.asRegistered
  rw [fields, functions]

namespace World

namespace Records

variable {world : World} {classes : List ClassSpec} {functions : List (FunctionDecl String)}
  (records : world.Records classes functions)
include records

/-- Every registered class was specified. -/
theorem specified {id : ClassId} (known : id ∈ world.classes.handles) :
    ∃ spec ∈ classes, world.spelling id = spec.asRegistered := by
  have member := List.mem_map_of_mem (f := world.spelling) known
  rw [records.classes] at member
  obtain ⟨spec, there, same⟩ := List.mem_map.mp member
  exact ⟨spec, there, same.symm⟩

/-- Every class that was specified is registered. -/
theorem registered {spec : ClassSpec} (member : spec ∈ classes) :
    ∃ id ∈ world.classes.handles, world.spelling id = spec.asRegistered := by
  have there := List.mem_map_of_mem (f := ClassSpec.asRegistered) member
  rw [← records.classes] at there
  exact List.mem_map.mp there

theorem names_eq :
    (world.classes.handles.map fun id => (world.cls id).name) = classes.map ClassSpec.name := by
  have spelled := congrArg (List.map ClassSpec.name) records.classes
  rw [List.map_map, List.map_map] at spelled
  exact spelled

theorem functionNames_eq : world.functions.map FunctionDecl.name = functions.map FunctionDecl.name := by
  have spelled := congrArg (List.map FunctionDecl.name) records.functions
  rw [List.map_map, List.map_map] at spelled
  exact spelled

/-- A class of some name and mode is found exactly if one was specified. -/
theorem finds_iff (fits : TypeMode → Prop) {name : String} :
    (∃ id, world.findClass? name = some id ∧ fits (world.cls id).mode) ↔
      ∃ spec ∈ classes, spec.name = name ∧ fits spec.mode := by
  constructor
  · rintro ⟨id, found, fit⟩
    obtain ⟨known, rfl⟩ := records.reachable.findClass?_iff.mp found
    obtain ⟨spec, member, same⟩ := records.specified known
    have mode : (world.cls id).mode = spec.mode := congrArg ClassSpec.mode same
    exact ⟨spec, member, (congrArg ClassSpec.name same).symm, mode ▸ fit⟩
  · rintro ⟨spec, member, rfl, fit⟩
    obtain ⟨id, known, same⟩ := records.registered member
    have mode : (world.cls id).mode = spec.mode := congrArg ClassSpec.mode same
    exact ⟨id, records.reachable.findClass?_iff.mpr ⟨known, congrArg ClassSpec.name same⟩, mode ▸ fit⟩

theorem extendsName_iff {derived base : String} :
    world.ExtendsName derived base ↔ NamesBase classes derived base := by
  constructor
  · rintro ⟨id, inside, rfl, based⟩
    obtain ⟨spec, member, same⟩ := records.specified ((Heap.mem_handles _ _).mpr inside)
    exact ⟨spec, member, (congrArg ClassSpec.name same).symm,
      (congrArg ClassSpec.base same).symm.trans based⟩
  · rintro ⟨spec, member, rfl, based⟩
    obtain ⟨id, known, same⟩ := records.registered member
    exact ⟨id, (Heap.mem_handles _ _).mp known, congrArg ClassSpec.name same,
      (congrArg ClassSpec.base same).trans based⟩

/-- An annotation is mentioned exactly if it spells one that is used. -/
theorem mentions_iff {use : AnnotationUse String} :
    Mentions classes functions use ↔
      ∃ linked, world.Annotates linked ∧ linked.spelled world.classRefs = use := by
  have ofClass : ∀ id spec, world.spelling id = ClassSpec.asRegistered spec →
      (use ∈ spec.uses ↔ ∃ linked ∈ (world.cls id).uses, linked.spelled world.classRefs = use) := by
    intro id spec same
    rw [← spec.uses_asRegistered, ← same, World.spelling, ClassDef.uses_spelled, List.mem_map]
  have ofFunction : (∃ function ∈ functions, use ∈ function.annotations) ↔
      ∃ function ∈ world.functions, ∃ linked ∈ function.annotations,
        linked.spelled world.classRefs = use := by
    have spelled : (functions.map FunctionDecl.asRegistered).flatMap FunctionDecl.annotations =
        functions.flatMap FunctionDecl.annotations := List.flatMap_map ..
    rw [← List.mem_flatMap, ← spelled, ← records.functions, List.mem_flatMap]
    simp only [List.mem_map, exists_exists_and_eq_and]
    exact exists_congr fun function => and_congr_right fun _ => List.mem_map
  constructor
  · rintro (⟨spec, member, used⟩ | declared)
    · obtain ⟨id, known, same⟩ := records.registered member
      obtain ⟨linked, there, spelled⟩ := (ofClass id spec same).mp used
      exact ⟨linked, .inl ⟨id, known, there⟩, spelled⟩
    · obtain ⟨function, member, linked, used, spelled⟩ := ofFunction.mp declared
      exact ⟨linked, .inr ⟨function, member, used⟩, spelled⟩
  · rintro ⟨linked, ⟨id, known, there⟩ | ⟨function, member, used⟩, spelled⟩
    · obtain ⟨spec, member, same⟩ := records.specified known
      exact .inl ⟨spec, member, (ofClass id spec same).mpr ⟨linked, there, spelled⟩⟩
    · exact .inr (ofFunction.mpr ⟨function, member, linked, used, spelled⟩)

/-- The registry is valid exactly if everything mentioned was specified and fits. -/
theorem valid_iff : world.Valid ↔
    (∀ spec ∈ classes, ∀ name, spec.base = some name →
      ∃ base ∈ classes, base.name = name ∧ base.mode.inheritableBy spec.mode = true) ∧
    ∀ use, Mentions classes functions use →
      ∃ marker ∈ classes, marker.name = use.cls ∧ marker.mode = .marker := by
  constructor
  · intro valid
    refine ⟨fun spec member name based => ?_, fun use mentions => ?_⟩
    · obtain ⟨id, known, same⟩ := records.registered member
      have mode : (world.cls id).mode = spec.mode := congrArg ClassSpec.mode same
      rw [← records.finds_iff fun base => base.inheritableBy spec.mode = true, ← mode]
      exact valid.bases id known name ((congrArg ClassSpec.base same).trans based)
    · obtain ⟨linked, annotates, rfl⟩ := records.mentions_iff.mp mentions
      exact (records.finds_iff fun mode => mode = .marker).mp (valid.markers linked annotates)
  · rintro ⟨bases, markers⟩
    refine ⟨fun id known name based => ?_, fun linked annotates => ?_⟩
    · obtain ⟨spec, member, same⟩ := records.specified known
      have mode : (world.cls id).mode = spec.mode := congrArg ClassSpec.mode same
      rw [mode]
      exact (records.finds_iff fun base => base.inheritableBy spec.mode = true).mpr
        (bases spec member name ((congrArg ClassSpec.base same).symm.trans based))
    · exact (records.finds_iff fun mode => mode = .marker).mpr
        (markers _ (records.mentions_iff.mpr ⟨linked, annotates, rfl⟩))

/-- What is on record in a valid registry is coherent. -/
theorem coherent (valid : world.Valid) : Coherent classes functions where
  names := records.names_eq ▸ records.reachable.order_eq ▸ records.reachable.consistent.distinct
  hosts := by
    have apart : world.classes.handles.Pairwise fun one other =>
        HostsDiffer (world.spelling one) (world.spelling other) := by
      refine (handles_nodup world.classes).imp_of_mem fun {one other} first second differ => ?_
      intro host described also
      have found := records.reachable.classForHost?_iff.mpr ⟨first, described⟩
      rw [records.reachable.classForHost?_iff.mpr ⟨second, also⟩] at found
      exact differ (Option.some.inj found).symm
    rw [← List.pairwise_map (f := world.spelling), records.classes, List.pairwise_map] at apart
    exact apart
  members spec member := by
    obtain ⟨id, _, same⟩ := records.registered member
    have nodup := records.reachable.sound.2.registered.members id
    have fields : (world.cls id).fields.map FieldDecl.name = spec.fields.map FieldDecl.name := by
      have spelled := congrArg (fun spec => spec.fields.map FieldDecl.name) same
      simpa [ClassSpec.asRegistered, World.spelling, ClassDef.spelled, FieldDecl.spelled,
        Function.comp_def] using spelled
    have functions : (world.cls id).functions.map FunctionDecl.name =
        spec.completeFunctions.map FunctionDecl.name := by
      have spelled := congrArg (fun spec => spec.functions.map FunctionDecl.name) same
      simpa [ClassSpec.asRegistered, World.spelling, ClassDef.spelled, FunctionDecl.spelled,
        Function.comp_def] using spelled
    rw [fields, functions] at nodup
    refine nodup.sublist (List.Sublist.append_left (List.Sublist.map _ ?_) _)
    unfold ClassSpec.completeFunctions
    split
    · exact List.sublist_append_left _ _
    · exact List.Sublist.refl _
  acyclic name returns := by
    have onward : TransGen world.ExtendsName name name :=
      TransGen.mono (fun _ _ names => records.extendsName_iff.mpr names) _ _ returns
    exact records.reachable.consistent.acyclic name onward
  bases := (records.valid_iff.mp valid).1
  markers := (records.valid_iff.mp valid).2
  functions := records.distinct

/-! ## Everything coherent is accepted -/

/-- The next of some coherent declarations fits, whichever were registered before. -/
theorem admits {spec : ClassSpec} {rest : List ClassSpec} {more : List (FunctionDecl String)}
    (coherent : Coherent (classes ++ spec :: rest) more) : world.Admits spec := by
  have here : spec ∈ classes ++ spec :: rest := List.mem_append_right _ List.mem_cons_self
  have names := coherent.names
  rw [List.map_append, List.map_cons] at names
  have apart : ∀ other ∈ classes, other.name ≠ spec.name := fun other member =>
    (List.nodup_append.mp names).2.2 _ (List.mem_map_of_mem member) _ List.mem_cons_self
  refine ⟨?_, fun host described => ?_, fun base based reaches => ?_, coherent.members spec here,
    fun base based id found => ?_⟩
  · rw [Option.eq_none_iff_forall_ne_some]
    intro id found
    obtain ⟨other, member, named, _⟩ :=
      (records.finds_iff fun _ => True).mp ⟨id, found, trivial⟩
    exact apart other member named
  · rw [Option.eq_none_iff_forall_ne_some]
    intro id found
    obtain ⟨known, also⟩ := records.reachable.classForHost?_iff.mp found
    obtain ⟨other, member, same⟩ := records.specified known
    have differ := (List.pairwise_append.mp coherent.hosts).2.2 other member spec List.mem_cons_self
    exact differ host ((congrArg ClassSpec.described same).symm.trans also) described
  · have onward : ReflTransGen (NamesBase (classes ++ spec :: rest)) base spec.name :=
      ReflTransGen.mono (fun _ _ names =>
        (records.extendsName_iff.mp names).of_subset (List.subset_append_left _ _)) _ _ reaches
    exact coherent.acyclic spec.name (TransGen.head' ⟨spec, here, rfl, based⟩ onward)
  · obtain ⟨base', there, named, allowed⟩ := coherent.bases spec here base based
    obtain ⟨other, member, same, mode⟩ :=
      (records.finds_iff fun mode => mode = (world.cls id).mode).mp ⟨id, found, rfl⟩
    have unique : base' = other :=
      List.inj_on_of_nodup_map coherent.names there (List.mem_append_left _ member)
        (named.trans same.symm)
    rw [← mode, ← unique]
    exact allowed

theorem newFunction {spec : FunctionDecl String} {rest : List (FunctionDecl String)}
    {more : List ClassSpec} (coherent : Coherent more (functions ++ spec :: rest)) :
    world.function? spec.name = none := by
  have names := coherent.functions
  rw [List.map_append, List.map_cons, ← records.functionNames_eq] at names
  rw [World.function?, List.find?_eq_none]
  intro function declared same
  refine (List.nodup_append.mp names).2.2 _ (List.mem_map_of_mem declared) _ List.mem_cons_self ?_
  simpa using same

/-- Coherent declarations are accepted, in the order in which they come. -/
theorem registers {rest : List Declaration}
    (coherent : Coherent (classes ++ classesOf rest) (functions ++ functionsOf rest)) :
    ∃ last, Registers world rest last := by
  induction rest generalizing world classes functions with
  | nil => exact ⟨world, .none world⟩
  | cons declaration rest ih =>
      have alive := records.reachable.sound.1
      cases declaration with
      | cls spec =>
          have admits : world.Admits spec := records.admits coherent
          have registered := records.reachable.sound.2.registered
          have checked := (registered.checkClass_eq_ok_iff alive spec).mpr admits
          have ok : (World.define spec).run world = (.ok (), world.addClass spec) := by
            rw [run_define, checked]
          obtain ⟨last, later⟩ := ih (records.define ok) (by rwa [List.append_assoc])
          exact ⟨last, .next ((registering_ok alive).mpr ok) later⟩
      | function spec =>
          have new : world.function? spec.name = none := records.newFunction coherent
          obtain ⟨after, ok⟩ :
              ∃ after, (World.defineFunction spec).run world = (.ok (), after) := by
            rw [run_defineFunction, new]
            exact ⟨_, rfl⟩
          obtain ⟨last, later⟩ :=
            ih (records.defineFunction ok) (by rwa [List.append_assoc functions])
          exact ⟨last, .next ((registering_ok alive).mpr ok) later⟩

end Records

/-- A registry can be established from declarations exactly if these are coherent. -/
theorem establishes_iff {config : Config} {marshaling : MarshalRules}
    {declarations : List Declaration} :
    (∃ settled, Establishes config marshaling declarations settled) ↔
      Coherent (classesOf declarations) (functionsOf declarations) := by
  have empty := records_initial config marshaling
  constructor
  · rintro ⟨settled, complete, registers, valid⟩
    have records := registers.records empty
    have alive := records.reachable.sound.1
    have decides := (validate_decides complete).trans
      (records.reachable.sound.2.registered.valid_iff alive).symm
    exact records.coherent (decides.mp (validate_eq_ok alive valid).1)
  · intro coherent
    obtain ⟨complete, registers⟩ := empty.registers coherent
    have records := registers.records empty
    obtain ⟨alive, sound⟩ := records.reachable.sound
    have decides := (validate_decides complete).trans (sound.registered.valid_iff alive).symm
    have valid := decides.mpr (records.valid_iff.mpr ⟨coherent.bases, coherent.markers⟩)
    refine ⟨(validate.run complete).2, complete, registers, ?_⟩
    rw [validate_of_alive alive, valid]

end World

end ScriptObjects
