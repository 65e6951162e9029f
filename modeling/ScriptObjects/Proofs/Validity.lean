import ScriptObjects.Proofs.HierarchyQueries

/-!
# What validation decides

Validation succeeds exactly if every base name stands for a class that lets the class
extend it, and every annotation for an annotation class.  A base may have been
registered after the class that names it, when nobody asked it any more; the checks of
single classes therefore have to add up to what holds of whole chains.

Validation changes no answer: it only makes references remember what they stand for.
And as classes and declarations stay, a registry that was valid once stays so until
something else is defined: whatever runs meanwhile, each annotation it meets has its
class.
-/

namespace ScriptObjects

set_option autoImplicit false

open Exec

/-! ## The annotations of a registry -/

namespace World

/-- The annotation is used on a declaration of the registry. -/
def Annotates (world : World) (use : AnnotationUse ClassRefId) : Prop :=
  (∃ id ∈ world.classes.handles, use ∈ (world.cls id).uses) ∨
    ∃ function ∈ world.functions, use ∈ function.annotations

/-- Every base is registered and lets its class extend it, and every annotation is a registered
annotation class. -/
structure Valid (world : World) : Prop where
  bases : ∀ id ∈ world.classes.handles, ∀ name, world.baseName? id = some name →
    ∃ base, world.findClass? name = some base ∧
      (world.cls base).mode.inheritableBy (world.cls id).mode = true
  markers : ∀ use, world.Annotates use →
    ∃ marker, world.findClass? (world.classRefs.get use.cls).name = some marker ∧
      (world.cls marker).mode = .marker

/-! ## The references of annotations exist -/

/-- The references of all annotations exist. -/
def RefersInside (world : World) : Prop :=
  ∀ use, world.Annotates use → use.cls.index < world.classRefs.size

theorem Continues.annotates {before after : World} (continues : before.Continues after)
    {use : AnnotationUse ClassRefId} : after.Annotates use ↔ before.Annotates use := by
  have same := continues.hierarchy
  unfold Annotates
  rw [continues.functions]
  refine or_congr_left (exists_congr fun id => ?_)
  rw [Heap.mem_handles, Heap.mem_handles, same.size, same.ask ClassDef.uses fun _ => rfl]

theorem RefersInside.later {before after : World} (refers : before.RefersInside)
    (continues : before.Continues after) : after.RefersInside := fun use annotates =>
  Nat.lt_of_lt_of_le (refers use (continues.annotates.mp annotates)) continues.refs

theorem RefersInside.adds {before after : World} {spec : ClassSpec} (refers : before.RefersInside)
    (adds : Adds spec before after) : after.RefersInside := by
  rintro use (⟨id, known, member⟩ | ⟨function, declared, member⟩)
  · obtain old | rfl := adds.cases_inside ((Heap.mem_handles _ _).mp known)
    · rw [adds.cls_old old] at member
      exact Nat.lt_of_lt_of_le
        (refers use (.inl ⟨id, (Heap.mem_handles _ _).mpr old, member⟩)) adds.refs
    · exact adds.describes.uses use member
  · have same : after.functions = before.functions := by rw [adds.rest]
    rw [same] at declared
    exact Nat.lt_of_lt_of_le (refers use (.inr ⟨function, declared, member⟩)) adds.refs

theorem RefersInside.addsFunction {before after : World} {function : Function}
    (refers : before.RefersInside) (adds : AddsFunction function before after) :
    after.RefersInside := by
  have functions : after.functions = before.functions ++ [function] := by rw [adds.rest]
  have classes : after.classes = before.classes := by rw [adds.rest]
  rintro use (⟨id, known, member⟩ | ⟨other, declared, member⟩)
  · unfold World.cls at member
    rw [classes] at known member
    exact Nat.lt_of_lt_of_le (refers use (.inl ⟨id, known, member⟩)) adds.refs.size
  · rw [functions] at declared
    rcases List.mem_append.mp declared with old | new
    · exact Nat.lt_of_lt_of_le (refers use (.inr ⟨other, old, member⟩)) adds.refs.size
    · rw [List.mem_singleton.mp new] at member
      exact adds.uses use member

theorem Reachable.refersInside {world : World} (reachable : Reachable world) :
    world.RefersInside := by
  induction reachable using Reachable.induct with
  | initial config marshaling =>
      rintro use (⟨id, known, _⟩ | ⟨function, declared, _⟩)
      · exact (List.not_mem_nil known).elim
      · exact (List.not_mem_nil declared).elim
  | proceed before proceeds ih =>
      obtain ⟨alive, sound⟩ := before.sound
      exact ih.later (proceeds.sound_continues alive sound).2
  | enlist before enlists ih =>
      obtain ⟨spec, adds⟩ | ⟨function, adds⟩ := enlists.cases
      · exact ih.adds adds
      · exact ih.addsFunction adds

/-! ## How checks run -/

theorem follow_bind_run {β : Type} (reference : ClassRefId)
    (next : Option ClassId → Registering β) (world : World) :
    ((liftM (follow reference) : Registering (Option ClassId)) >>= next).run world =
      (next (world.target? reference)).run (world.touchRef reference) := by
  rw [bind_run]
  rfl

theorem validateUses_cons (target : String) (use : AnnotationUse ClassRefId)
    (rest : List (AnnotationUse ClassRefId)) (world : World) :
    (validateUses target (use :: rest)).run world =
      match world.target? use.cls with
      | none => (.error (.unknownMarker target (world.classRefs.get use.cls).name),
          world.touchRef use.cls)
      | some id =>
          if ((world.touchRef use.cls).cls id).mode = .marker then
            (validateUses target rest).run (world.touchRef use.cls)
          else (.error (.notMarker target ((world.touchRef use.cls).cls id).name),
            world.touchRef use.cls) := by
  rw [validateUses.eq_def]
  refine (get_bind_run ..).trans ((follow_bind_run ..).trans ?_)
  cases world.target? use.cls with
  | none => rfl
  | some id =>
      refine (get_bind_run ..).trans ?_
      dsimp only
      split <;> rfl

/-- What validation checks of the base of a class. -/
def validateBase (cls : ClassDef) : Registering Unit :=
  match cls.base with
  | none => pure ()
  | some reference => do
      match ← (follow reference : StateM World _) with
      | none => throw (.unknownBase cls.name ((← get).classRefs.get reference).name)
      | some base => (← get).checkInheritable cls.name cls.mode base

theorem validateClass_run (id : ClassId) (world : World) :
    (validateClass id).run world =
      (validateBase (world.cls id) >>= fun _ => validateMembers (world.cls id)).run world := by
  unfold validateClass
  refine (get_bind_run ..).trans ?_
  unfold validateBase
  dsimp only
  cases (world.cls id).base with
  | none => rfl
  | some reference =>
      dsimp only
      rw [bind_assoc]
      refine (follow_bind_run ..).trans ((follow_bind_run ..).trans ?_).symm
      cases world.target? reference <;> rfl

/-! ## Checks that decide -/

/-- What holds of a state and of all states after references were followed. -/
def Steady (holds : World → Prop) : Prop :=
  ∀ first second, Follows first second → (holds second ↔ holds first)

/-- A check succeeds exactly where something holds, and only follows references. -/
structure Decides (check : Registering Unit) (holds : World → Prop) : Prop where
  answers : ∀ world, (check.run world).1 = .ok () ↔ holds world
  follows : OnlyFollows check

namespace Follows

variable {first second : World} (follows : Follows first second)
include follows

theorem target? (reference : ClassRefId) :
    second.target? reference = first.target? reference := by
  induction follows with
  | refl => rfl
  | touch _ other ih => rw [target?_touchRef, ih]

theorem name (reference : ClassRefId) :
    (second.classRefs.get reference).name = (first.classRefs.get reference).name := by
  induction follows with
  | refl => rfl
  | touch _ other ih => rw [name_touchRef, ih]

theorem sameHierarchy : SameHierarchy first second := by
  induction follows with
  | refl => exact .refl _
  | touch _ reference ih => exact ih.trans (.touchRef _ reference)

end Follows

namespace Decides

variable {first second : Registering Unit} {one two : World → Prop}

theorem andThen (before : Decides first one) (after : Decides second two) (steady : Steady two) :
    Decides (first >>= fun _ => second) fun world => one world ∧ two world where
  answers world := by
    rw [bind_run]
    have decides := before.answers world
    have follows := before.follows world
    rcases ends : first.run world with ⟨answer, between⟩
    rw [ends] at decides follows
    cases answer with
    | error refusal => exact iff_of_false nofun fun both => nomatch decides.mpr both.1
    | ok =>
        show (second.run between).1 = .ok () ↔ _
        rw [after.answers between, steady world between follows]
        exact (and_iff_right (decides.mp rfl)).symm
  follows := .bind before.follows fun _ => after.follows

theorem forM {α : Type} {check : α → Registering Unit} {holds : α → World → Prop}
    (each : ∀ item, Decides (check item) (holds item)) (steady : ∀ item, Steady (holds item))
    (items : List α) : Decides (items.forM check) fun world => ∀ item ∈ items, holds item world := by
  induction items with
  | nil => exact ⟨fun world => iff_of_true rfl fun _ member => (List.not_mem_nil member).elim,
      .of_same fun _ => rfl⟩
  | cons item rest ih =>
      have later : Steady fun world => ∀ item ∈ rest, holds item world :=
        fun first second follows =>
          forall₂_congr fun item _ => steady item first second follows
      have both := (each item).andThen ih later
      refine ⟨fun world => (both.answers world).trans ?_, both.follows⟩
      simp only [List.forall_mem_cons]

theorem congr (decides : Decides first one) (same : ∀ world, one world ↔ two world) :
    Decides first two :=
  ⟨fun world => (decides.answers world).trans (same world), decides.follows⟩

end Decides

/-- The reference of an annotation stands for an annotation class. -/
def IsMarker (world : World) (use : AnnotationUse ClassRefId) : Prop :=
  ∃ marker, world.target? use.cls = some marker ∧ (world.cls marker).mode = .marker

theorem steady_isMarker (use : AnnotationUse ClassRefId) : Steady fun world => world.IsMarker use := by
  intro first second follows
  unfold IsMarker
  simp only [follows.target?, follows.cls]

theorem steady_isMarkers (uses : List (AnnotationUse ClassRefId)) :
    Steady fun world => ∀ use ∈ uses, world.IsMarker use :=
  fun first second follows => forall₂_congr fun use _ => steady_isMarker use first second follows

theorem validateUses_decides (target : String) (uses : List (AnnotationUse ClassRefId)) :
    Decides (validateUses target uses) fun world => ∀ use ∈ uses, world.IsMarker use := by
  refine ⟨fun world => ?_, validateUses_onlyFollows target uses⟩
  induction uses generalizing world with
  | nil => exact iff_of_true rfl fun _ member => (List.not_mem_nil member).elim
  | cons use rest ih =>
      rw [List.forall_mem_cons, validateUses_cons]
      cases stands : world.target? use.cls with
      | none =>
          refine iff_of_false nofun ?_
          rintro ⟨⟨marker, found, _⟩, _⟩
          rw [stands] at found
          cases found
      | some id =>
          have later : (∀ other ∈ rest, (world.touchRef use.cls).IsMarker other) ↔
              ∀ other ∈ rest, world.IsMarker other :=
            steady_isMarkers rest _ _ (.touch .refl use.cls)
          have marks : world.IsMarker use ↔ (world.cls id).mode = .marker := by
            unfold IsMarker
            rw [stands]
            exact ⟨fun ⟨_, same, marker⟩ => Option.some.inj same ▸ marker,
              fun marker => ⟨id, rfl, marker⟩⟩
          rw [marks]
          dsimp only
          rw [cls_touchRef]
          split
          · next marker => rw [ih, later, and_iff_right marker]
          · next other => exact iff_of_false nofun fun both => other both.1

/-- The base of a class, where it names one, is registered and lets it extend. -/
def BaseFits (world : World) (cls : ClassDef) : Prop :=
  ∀ reference, cls.base = some reference →
    ∃ base, world.target? reference = some base ∧
      (world.cls base).mode.inheritableBy cls.mode = true

theorem steady_baseFits (cls : ClassDef) : Steady fun world => world.BaseFits cls := by
  intro first second follows
  unfold BaseFits
  simp only [follows.target?, follows.cls]

theorem validateBase_decides (cls : ClassDef) :
    Decides (validateBase cls) fun world => world.BaseFits cls := by
  unfold validateBase BaseFits
  cases cls.base with
  | none => exact ⟨fun world => iff_of_true rfl nofun, .of_same fun _ => rfl⟩
  | some reference =>
      constructor
      · intro world
        simp only [Option.some.injEq, forall_eq']
        rw [follow_bind_run]
        cases stands : world.target? reference with
        | none => exact iff_of_false nofun fun ⟨_, found, _⟩ => nomatch found
        | some base =>
            simp only [Option.some.injEq, exists_eq_left']
            rw [get_bind_run]
            unfold checkInheritable
            rw [cls_touchRef]
            dsimp only
            split
            · next allowed => exact iff_of_true rfl allowed
            · next refused => exact iff_of_false nofun refused
      · refine .bind (follow_onlyFollows reference) fun found => ?_
        cases found with
        | none => exact .bind (.of_same fun _ => rfl) fun _ => .of_same fun _ => rfl
        | some base => exact .bind (.of_same fun _ => rfl) fun _ => .of_same fun _ => rfl

theorem validateMembers_decides (cls : ClassDef) :
    Decides (validateMembers cls) fun world => ∀ use ∈ cls.uses, world.IsMarker use := by
  have fields := Decides.forM
    (fun field : Field => validateUses_decides (cls.name ++ "." ++ field.name) field.annotations)
    (fun field => steady_isMarkers field.annotations) cls.fields
  have functions := Decides.forM
    (fun function : Function => validateUses_decides function.label function.annotations)
    (fun function => steady_isMarkers function.annotations) cls.functions
  have steadyFunctions : Steady fun world => ∀ function ∈ cls.functions,
      ∀ use ∈ function.annotations, world.IsMarker use :=
    fun first second follows => forall₂_congr fun function _ =>
      steady_isMarkers function.annotations first second follows
  have steadyFields : Steady fun world => ∀ field ∈ cls.fields,
      ∀ use ∈ field.annotations, world.IsMarker use :=
    fun first second follows => forall₂_congr fun field _ =>
      steady_isMarkers field.annotations first second follows
  have members := fields.andThen functions steadyFunctions
  have all := (validateUses_decides cls.name cls.annotations).andThen members
    fun first second follows => and_congr (steadyFields first second follows)
      (steadyFunctions first second follows)
  refine all.congr fun world => ?_
  simp only [ClassDef.uses, List.forall_mem_append, List.mem_flatMap, forall_exists_index, and_imp,
    and_assoc]
  refine and_congr_right fun _ => and_congr ?_ ?_
  · exact ⟨fun each use entry member => each entry member use,
      fun each entry member use => each use entry member⟩
  · exact ⟨fun each use entry member => each entry member use,
      fun each entry member use => each use entry member⟩

/-- What validation asks of one class. -/
def ClassFits (world : World) (id : ClassId) : Prop :=
  world.BaseFits (world.cls id) ∧ ∀ use ∈ (world.cls id).uses, world.IsMarker use

theorem steady_classFits (id : ClassId) : Steady fun world => world.ClassFits id := by
  intro first second follows
  show second.ClassFits id ↔ first.ClassFits id
  unfold ClassFits
  rw [follows.cls]
  exact and_congr (steady_baseFits _ first second follows) (steady_isMarkers _ first second follows)

theorem validateClass_decides (id : ClassId) :
    Decides (validateClass id) fun world => world.ClassFits id where
  answers world := by
    rw [validateClass_run]
    exact ((validateBase_decides (world.cls id)).andThen (validateMembers_decides (world.cls id))
      (steady_isMarkers _)).answers world
  follows := validateClass_onlyFollows id

theorem validate_run (world : World) :
    validate.run world =
      ((world.registry.order.forM validateClass) >>= fun _ =>
        world.functions.forM fun function =>
          validateUses function.label function.annotations).run world := by
  have checks : OnlyFollows (world.registry.order.forM validateClass) :=
    .forM validateClass_onlyFollows
  have follows := checks world
  refine (get_bind_run ..).trans ?_
  rw [bind_run, bind_run]
  rcases ends : (world.registry.order.forM validateClass).run world with ⟨answer, between⟩
  rw [ends] at follows
  change Follows world between at follows
  cases answer with
  | error refusal => rfl
  | ok =>
      refine (get_bind_run ..).trans ?_
      have same : between.functions = world.functions := by rw [follows.rest]
      rw [same]

theorem validate_decides (world : World) :
    (validate.run world).1 = .ok () ↔ (∀ id ∈ world.registry.order, world.ClassFits id) ∧
      ∀ function ∈ world.functions, ∀ use ∈ function.annotations, world.IsMarker use := by
  rw [validate_run]
  have classes := Decides.forM validateClass_decides steady_classFits world.registry.order
  have functions := Decides.forM
    (fun function : Function => validateUses_decides function.label function.annotations)
    (fun function => steady_isMarkers function.annotations) world.functions
  refine (classes.andThen functions fun first second follows => ?_).answers world
  exact forall₂_congr fun function _ =>
    steady_isMarkers function.annotations first second follows

theorem Registered.valid_iff {world : World} (registered : world.Registered)
    (alive : world.alive = true) :
    world.Valid ↔ (∀ id ∈ world.registry.order, world.ClassFits id) ∧
      ∀ function ∈ world.functions, ∀ use ∈ function.annotations, world.IsMarker use := by
  have marks : ∀ use, world.IsMarker use ↔
      ∃ marker, world.findClass? (world.classRefs.get use.cls).name = some marker ∧
        (world.cls marker).mode = .marker := by
    intro use
    unfold IsMarker
    rw [registered.target?_eq alive]
  have fits : ∀ id, world.BaseFits (world.cls id) ↔
      ∀ name, world.baseName? id = some name →
        ∃ base, world.findClass? name = some base ∧
          (world.cls base).mode.inheritableBy (world.cls id).mode = true := by
    intro id
    unfold BaseFits baseName?
    simp only [registered.target?_eq alive, Option.map_eq_some_iff, forall_exists_index, and_imp]
    exact ⟨fun each _ reference based same => same ▸ each reference based,
      fun each reference based => each _ reference based rfl⟩
  rw [registered.filed.order]
  constructor
  · intro valid
    refine ⟨fun id known => ⟨(fits id).mpr (valid.bases id known), fun use member => ?_⟩,
      fun function declared use member => ?_⟩
    · exact (marks use).mpr (valid.markers use (.inl ⟨id, known, member⟩))
    · exact (marks use).mpr (valid.markers use (.inr ⟨function, declared, member⟩))
  · rintro ⟨classes, functions⟩
    refine ⟨fun id known => (fits id).mp (classes id known).1, ?_⟩
    rintro use (⟨id, known, member⟩ | ⟨function, declared, member⟩)
    · exact (marks use).mp ((classes id known).2 use member)
    · exact (marks use).mp (functions function declared use member)

/-! ## Whole chains -/

end World

theorem TypeMode.of_inheritableBy {base derived : TypeMode}
    (allowed : base.inheritableBy derived = true) :
    base ≠ .sealed ∧ base ≠ .singleton ∧ (base = .marker ↔ derived = .marker) := by
  cases base <;> cases derived <;> simp_all [TypeMode.inheritableBy]

namespace World

/-- The chain of a class, from the class to one without a base. -/
structure WholeChain (world : World) (id : ClassId) (chain : List ClassId) : Prop where
  chains : world.Chain id chain
  /-- A walk along the bases meets this chain, to its end unless two names have one identity. -/
  walked : world.ancestors id <+: chain
  exact_ : world.DistinctHashes → world.ancestors id = chain
  ends : ∀ last ∈ chain.getLast?, (world.cls last).base = none
  open_ : ∀ member ∈ chain.tail, (world.cls member).mode ≠ .sealed ∧
    (world.cls member).mode ≠ .singleton
  uniform : (∀ member ∈ chain, (world.cls member).mode = .marker) ∨
    ∀ member ∈ chain, (world.cls member).mode ≠ .marker

section

variable {world : World} (registered : world.Registered) (alive : world.alive = true)
  (valid : world.Valid)
include registered alive valid

/-- A registered class of a valid registry has a registered base that lets it extend, or none. -/
theorem Valid.inheritable {id base : ClassId} (inside : id.index < world.classes.size)
    (next : world.base? id = some base) :
    (world.cls base).mode.inheritableBy (world.cls id).mode = true := by
  rw [registered.base?_eq alive] at next
  obtain ⟨name, based, found⟩ := Option.bind_eq_some_iff.mp next
  obtain ⟨other, same, allowed⟩ := valid.bases id ((Heap.mem_handles _ _).mpr inside) name based
  rw [found] at same
  exact Option.some.inj same ▸ allowed

theorem Valid.base_eq_none {id : ClassId} (inside : id.index < world.classes.size)
    (missing : world.base? id = none) : (world.cls id).base = none := by
  cases based : world.baseName? id with
  | none => exact Option.map_eq_none_iff.mp based
  | some name =>
      obtain ⟨other, found, _⟩ := valid.bases id ((Heap.mem_handles _ _).mpr inside) name based
      rw [registered.missing_of_base? alive missing based] at found
      cases found

theorem Valid.wholeChain {id : ClassId} {chain : List ClassId} (chains : world.Chain id chain)
    (inside : id.index < world.classes.size) : world.WholeChain id chain := by
  have walked : world.ancestors id <+: chain := chains.walk_prefix _ _
  have exact_ : world.DistinctHashes → world.ancestors id = chain := fun distinct =>
    (registered.hierarchical distinct).ancestors_eq chains inside
  induction chains with
  | @last id base =>
      refine ⟨.last base, walked, exact_, ?_, fun _ found => (List.not_mem_nil found).elim, ?_⟩
      · rintro last ⟨⟩
        exact valid.base_eq_none registered alive inside base
      · simp only [List.mem_singleton, forall_eq]
        exact Classical.em _
  | @step id base rest next below ih =>
      have there := registered.base?_inside next
      have whole := ih there (below.walk_prefix _ _) fun distinct =>
        (registered.hierarchical distinct).ancestors_eq below there
      obtain ⟨unsealed, plural, marks⟩ :=
        TypeMode.of_inheritableBy (valid.inheritable registered alive inside next)
      obtain ⟨more, rfl⟩ := below.head
      refine ⟨.step next below, walked, exact_, ?_, ?_, ?_⟩
      · rw [List.getLast?_cons_cons]
        exact whole.ends
      · rw [List.tail_cons]
        intro member found
        rcases List.mem_cons.mp found with rfl | later
        · exact ⟨unsealed, plural⟩
        · exact whole.open_ member later
      · refine whole.uniform.imp (fun all member found => ?_) fun none member found => ?_
        · rcases List.mem_cons.mp found with rfl | later
          · exact marks.mp (all base List.mem_cons_self)
          · exact all member later
        · rcases List.mem_cons.mp found with rfl | later
          · exact fun marker => none base List.mem_cons_self (marks.mpr marker)
          · exact none member later

end

/-! ## Later states -/

/-- The class of an annotation is found, and is an annotation class. -/
def Resolves (world : World) (use : AnnotationUse ClassRefId) : Prop :=
  ∃ marker, (Exec.resolveRef? use.cls world).1 = .done (some marker) ∧
    (world.cls marker).name = (world.classRefs.get use.cls).name ∧
    (world.cls marker).mode = .marker

/-- Every annotation resolves that a declaration has or that a function brings along when it is
looked up. -/
structure ResolvesAll (world : World) : Prop where
  declared : ∀ use, world.Annotates use → world.Resolves use
  offered : ∀ store name function receiver, world.offer? store name = some (function, receiver) →
    ∀ use ∈ function.annotations, world.Resolves use

theorem Declares.annotates {world : World} {function : Function} (declares : world.Declares function)
    {use : AnnotationUse ClassRefId} (member : use ∈ function.annotations) :
    world.Annotates use := by
  obtain declared | ⟨id, declared⟩ := declares
  · exact .inr ⟨function, declared, member⟩
  · refine .inl ⟨id, (Heap.mem_handles _ _).mpr (inside_of_function declared), ?_⟩
    exact List.mem_append_right _ (List.mem_flatMap.mpr ⟨function, declared, member⟩)

theorem Valid.resolvesAll {world : World} (registered : world.Registered)
    (alive : world.alive = true) (valid : world.Valid) : world.ResolvesAll := by
  have declared : ∀ use, world.Annotates use → world.Resolves use := by
    intro use annotates
    obtain ⟨marker, found, mode⟩ := valid.markers use annotates
    refine ⟨marker, congrArg Outcome.done ?_, (registered.findClass?_eq_some found).2, mode⟩
    rw [registered.target?_eq alive, found]
  refine ⟨declared, fun store name function receiver offered use member => ?_⟩
  exact declared use (Declares.annotates (World.offer?_declared offered).1 member)

/-- A registry stays valid until something else is defined. -/
theorem Valid.later {before after : World} (valid : before.Valid) (refers : before.RefersInside)
    (registered : before.Registered) (continues : before.Continues after) : after.Valid := by
  have same := continues.hierarchy
  have modes : ∀ id, (after.cls id).mode = (before.cls id).mode := same.ask ClassDef.mode fun _ => rfl
  refine ⟨fun id known name based => ?_, fun use annotates => ?_⟩
  · rw [Heap.mem_handles, same.size, ← Heap.mem_handles] at known
    obtain ⟨reference, declared, rfl⟩ := Option.map_eq_some_iff.mp based
    rw [same.ask ClassDef.base fun _ => rfl] at declared
    rw [continues.names reference (registered.baseRefs id reference declared)]
    obtain ⟨base, found, allowed⟩ := valid.bases id known _ (congrArg (Option.map _) declared)
    exact ⟨base, (same.findClass? _).trans found, by rw [modes, modes]; exact allowed⟩
  · have earlier := continues.annotates.mp annotates
    rw [continues.names use.cls (refers use earlier)]
    obtain ⟨marker, found, mode⟩ := valid.markers use earlier
    exact ⟨marker, (same.findClass? _).trans found, (modes marker).trans mode⟩

/-! ## Nothing is answered otherwise -/

/-- Every question to the registry and to the hierarchy has the same answer in both states, every
store offers the same, and nothing differs but what references remember. -/
structure AnswersAlike (first second : World) : Prop where
  rest : second = { first with classRefs := second.classRefs }
  names : ∀ reference, (second.classRefs.get reference).name = (first.classRefs.get reference).name
  remembered : ∀ reference, (first.classRefs.get reference).target.isSome →
    second.classRefs.get reference = first.classRefs.get reference
  findClass? : second.findClass? = first.findClass?
  classForHost? : second.classForHost? = first.classForHost?
  function? : second.function? = first.function?
  target? : second.target? = first.target?
  base? : second.base? = first.base?
  ancestors : second.ancestors = first.ancestors
  doesExtend : second.doesExtend = first.doesExtend
  nearest? : ∀ {α : Type} (id : ClassId) (question : ClassDef → Option α),
    second.nearest? id question = first.nearest? id question
  metaTable : second.metaTable = first.metaTable
  accepts : second.accepts = first.accepts
  isTypeCompatible : second.isTypeCompatible = first.isTypeCompatible
  offer? : second.offer? = first.offer?

theorem Follows.answersAlike {first second : World} (follows : Follows first second) :
    AnswersAlike first second := by
  have same := follows.sameHierarchy
  have rest := follows.rest
  have classes := follows.classes
  have cls : second.cls = first.cls := funext follows.cls
  have findClass? : second.findClass? = first.findClass? := funext same.findClass?
  have doesExtend : second.doesExtend = first.doesExtend := funext₂ same.doesExtend
  have ancestors : second.ancestors = first.ancestors := funext same.ancestors
  exact {
    rest
    names := follows.name
    remembered := fun reference known => by
      induction follows with
      | refl => rfl
      | touch before other ih =>
          have between := ih before.sameHierarchy before.rest before.classes (funext before.cls)
            (funext before.sameHierarchy.findClass?) (funext₂ before.sameHierarchy.doesExtend)
            (funext before.sameHierarchy.ancestors)
          rw [get_touchRef_of_remembered _ other (between ▸ known), between]
    findClass?
    classForHost? := by
      unfold World.classForHost?
      rw [same.registry]
    function? := by
      unfold World.function?
      rw [rest]
    target? := funext follows.target?
    base? := funext same.base
    ancestors
    doesExtend
    nearest? := fun id question => by
      unfold World.nearest?
      rw [ancestors, cls]
    metaTable := by
      funext id
      unfold World.metaTable
      rw [cls, same.buildMetaTable]
    accepts := funext₂ (same.accepts (by rw [rest]) (by rw [rest]))
    isTypeCompatible := by
      unfold World.isTypeCompatible
      rw [findClass?, doesExtend, cls]
    offer? := by
      funext store name
      refine offer?_congr same (by rw [rest]) ?_ (fun owner _ _ _ _ => ?_) name
      · rw [rest]
        rfl
      · rw [rest]
        rfl }

/-! ## Validation -/

theorem Reachable.validates_iff {world : World} (reachable : Reachable world) :
    (validate.run world).1 = .ok () ↔ world.Valid := by
  obtain ⟨alive, sound⟩ := reachable.sound
  exact (validate_decides world).trans (sound.registered.valid_iff alive).symm

/-- In every state of a session validation succeeds exactly if the registry is valid, and changes
no answer.  Where it succeeds, all chains are whole, and every annotation resolves in every later
state until something else is defined, also in the middle of a run. -/
theorem validation_decided {world : World} (reachable : Reachable world) :
    ∃ answer after, Session.validate world = (.done answer, after) ∧
      (answer = .ok () ↔ world.Valid) ∧ AnswersAlike world after ∧
      (answer = .ok () →
        (∀ id ∈ after.classes.handles, ∃ chain, after.WholeChain id chain) ∧
        ∀ later, Proceeds after later → later.ResolvesAll) := by
  obtain ⟨alive, sound⟩ := reachable.sound
  have registered := sound.registered
  have follows := validate_onlyFollows world
  have decides := reachable.validates_iff
  refine ⟨_, _, validate_of_alive alive, decides, follows.answersAlike, fun ok => ?_⟩
  have valid := decides.mp ok
  have before : Reachable (validate.run world).2 := .proceed reachable follows.proceeds
  obtain ⟨_, continues⟩ := follows.proceeds.sound_continues alive sound
  have refers := reachable.refersInside
  have stays := valid.later refers registered continues
  obtain ⟨aliveAfter, soundAfter⟩ := before.sound
  refine ⟨fun id known => ?_, fun later proceeds => ?_⟩
  · have inside := (Heap.mem_handles _ _).mp known
    obtain ⟨chain, chains⟩ := soundAfter.registered.grounded id inside
    exact ⟨chain, stays.wholeChain soundAfter.registered aliveAfter chains inside⟩
  · obtain ⟨soundLater, onward⟩ := proceeds.sound_continues aliveAfter soundAfter
    have still := stays.later before.refersInside soundAfter.registered onward
    exact still.resolvesAll soundLater.registered (onward.alive.trans aliveAfter)

/-- A chain registered from its end, whose last class has an annotated field. -/
def markedSpecs : List ClassSpec :=
  [bareClass "C" (some "B")
     [⟨"x", .global, .any, .script none, [⟨"M", []⟩], none⟩] [],
   bareClass "B" none [] [],
   ⟨"M", .marker, none, [], [], [], none, none⟩]

theorem validation_decided_marked : ∃ after,
    Session.validate (defining default markedSpecs) = (.done (.ok ()), after) ∧
    (defining default markedSpecs).Valid ∧ after.findClass? "C" = some ⟨0⟩ ∧
    (∃ chain, after.WholeChain ⟨0⟩ chain) ∧ after.ResolvesAll := by
  obtain ⟨answer, after, ends, decides, alike, settles⟩ :=
    validation_decided (reachable_defining default markedSpecs)
  have ok : answer = .ok () := by
    have alive : (defining default markedSpecs).alive = true := by decide +kernel
    rw [validate_of_alive alive] at ends
    cases ends
    rfl
  obtain ⟨chains, later⟩ := settles ok
  have found : after.findClass? "C" = some ⟨0⟩ := by
    rw [alike.findClass?]
    decide +kernel
  refine ⟨after, ok ▸ ends, decides.mp ok, found, chains ⟨0⟩ ?_, later after (.refl after)⟩
  rw [Heap.mem_handles, alike.rest]
  show 0 < (defining default markedSpecs).classes.size
  decide +kernel

end World

end ScriptObjects
