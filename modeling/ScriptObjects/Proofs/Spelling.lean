import ScriptObjects.Proofs.Growth

/-!
# Declarations spelled out

A registered class holds references to other classes where its specification holds their
names.  Spelling a class out puts the names back: what registration keeps of a
specification is all of it, with the members given their owner and a constructor
supplied where one is missing.

References only ever change by remembering their class.  As they keep their names, a
class that was spelled out once is spelled the same for good.
-/

namespace ScriptObjects

set_option autoImplicit false

/-! ## Spelling -/

section

variable (refs : Heap .classRef ClassRef)

/-- An annotation with the name of its class. -/
def AnnotationUse.spelled (use : AnnotationUse ClassRefId) : AnnotationUse String :=
  ⟨(refs.get use.cls).name, use.args⟩

/-- A function with the names of its annotations. -/
def FunctionDecl.spelled (function : Function) : FunctionDecl String :=
  { name := function.name, access := function.access, role := function.role
    returns := function.returns, body := function.body
    annotations := function.annotations.map (AnnotationUse.spelled refs), owner := function.owner }

/-- A field with the names of its annotations. -/
def FieldDecl.spelled (field : Field) : FieldDecl String :=
  { name := field.name, access := field.access, type := field.type, storage := field.storage
    annotations := field.annotations.map (AnnotationUse.spelled refs), owner := field.owner }

/-- A class with the names of its base and of all its annotations. -/
def ClassDef.spelled (cls : ClassDef) : ClassSpec where
  name := cls.name
  mode := cls.mode
  base := cls.base.map fun reference => (refs.get reference).name
  fields := cls.fields.map (FieldDecl.spelled refs)
  functions := cls.functions.map (FunctionDecl.spelled refs)
  annotations := cls.annotations.map (AnnotationUse.spelled refs)
  described := cls.described
  descriptor := cls.descriptor

end

/-- A specification as it is registered: every member has an owner, and there is a constructor. -/
def ClassSpec.asRegistered (spec : ClassSpec) : ClassSpec :=
  { spec with
    fields := spec.fields.map fun field => { field with owner := some (.ofClass spec.name) }
    functions := spec.completeFunctions.map fun function =>
      { function with owner := some (.ofClass spec.name) } }

namespace World

/-! ## Names stay -/

/-- The second heap has the references of the first under their names, and perhaps more. -/
structure KeepsNames (before after : Heap .classRef ClassRef) : Prop where
  size : before.size ≤ after.size
  names : ∀ reference, reference.index < before.size →
    (after.get reference).name = (before.get reference).name

namespace KeepsNames

variable {first second third : Heap .classRef ClassRef}

theorem refl (refs : Heap .classRef ClassRef) : KeepsNames refs refs :=
  ⟨Nat.le_refl _, fun _ _ => rfl⟩

theorem trans (one : KeepsNames first second) (two : KeepsNames second third) :
    KeepsNames first third where
  size := Nat.le_trans one.size two.size
  names reference old := by
    rw [two.names reference (Nat.lt_of_lt_of_le old one.size), one.names reference old]

theorem of_linked (linked : Linked first second) : KeepsNames first second :=
  ⟨linked.size, fun reference old => congrArg ClassRef.name (linked.same reference old)⟩

theorem touchRef (world : World) (reference : ClassRefId) :
    KeepsNames world.classRefs (world.touchRef reference).classRefs :=
  ⟨Nat.le_of_eq (world.size_classRefs_touchRef reference).symm,
    fun other _ => world.name_touchRef reference other⟩

end KeepsNames

/-! ## Linking and spelling -/

/-- What linking makes is spelled like its origin, then and for as long as names stay. -/
def Spells {α β : Type} (link : Linking α) (spell : Heap .classRef ClassRef → α → β)
    (origin : β) : Prop :=
  ∀ refs later, KeepsNames (link.run refs).2 later → spell later (link.run refs).1 = origin

theorem linkName_spells (name : String) :
    Spells (linkName name) (fun refs reference => (refs.get reference).name) name := by
  intro refs later keeps
  have there : refs.next.index < (refs.push ⟨name, none⟩).size := by
    rw [Heap.next_index, Heap.size_push]
    exact Nat.lt_succ_self _
  have kept := keeps.names refs.next there
  rw [show ((linkName name).run refs).2 = refs.push ⟨name, none⟩ from rfl,
    Heap.get_push_next] at kept
  exact kept

theorem linkBase_spells (base : Option String) :
    Spells (base.mapM linkName)
      (fun refs => Option.map fun reference => (refs.get reference).name) base := by
  intro refs later keeps
  cases base with
  | none => rfl
  | some name => exact congrArg some (linkName_spells name refs later keeps)

theorem Spells.mapM {α β γ : Type} {link : α → Linking β}
    {spell : Heap .classRef ClassRef → β → γ} {origin : α → γ} (appends : ∀ x, Appends (link x))
    (each : ∀ x, Spells (link x) spell (origin x)) (xs : List α) :
    Spells (xs.mapM link) (fun refs => List.map (spell refs)) (xs.map origin) := by
  induction xs with
  | nil => exact fun _ _ _ => rfl
  | cons x rest ih =>
      intro refs later keeps
      rw [List.mapM_cons] at keeps ⊢
      let first := (link x).run refs
      let others := (rest.mapM link).run first.2
      have keeps : KeepsNames others.2 later := keeps
      have among : KeepsNames first.2 others.2 := .of_linked (Appends.mapM appends rest first.2)
      have head : spell later first.1 = origin x := each x refs later (among.trans keeps)
      have tail : others.1.map (spell later) = rest.map origin := ih first.2 later keeps
      show spell later first.1 :: others.1.map (spell later) = origin x :: rest.map origin
      rw [head, tail]

theorem linkUse_spells (use : AnnotationUse String) :
    Spells (linkUse use) AnnotationUse.spelled use := by
  intro refs later keeps
  exact congrArg (AnnotationUse.mk · use.args) (linkName_spells use.cls refs later keeps)

theorem linkUses_spells (uses : List (AnnotationUse String)) :
    Spells (uses.mapM linkUse) (fun refs => List.map (AnnotationUse.spelled refs)) uses := by
  have spells := Spells.mapM linkUse_appends linkUse_spells uses
  rwa [List.map_id'] at spells

theorem linkFunction_spells (owner : Option Owner) (function : FunctionDecl String) :
    Spells (linkFunction owner function) FunctionDecl.spelled
      { function with owner := owner } := by
  intro refs later keeps
  exact congrArg (FunctionDecl.mk function.name function.access function.role function.returns
    function.body · owner) (linkUses_spells function.annotations refs later keeps)

theorem linkField_spells (owner : Owner) (field : FieldDecl String) :
    Spells (linkField owner field) FieldDecl.spelled { field with owner := some owner } := by
  intro refs later keeps
  exact congrArg (FieldDecl.mk field.name field.access field.type field.storage · (some owner))
    (linkUses_spells field.annotations refs later keeps)

/-- What linking makes of a specification is spelled like the specification. -/
theorem linkClass_spells (spec : ClassSpec) :
    Spells (linkClass spec) ClassDef.spelled spec.asRegistered := by
  intro refs later keeps
  let owner := Owner.ofClass spec.name
  let base := (spec.base.mapM linkName).run refs
  let fields := (spec.fields.mapM (linkField owner)).run base.2
  let functions := (spec.completeFunctions.mapM (linkFunction (some owner))).run fields.2
  let uses := (spec.annotations.mapM linkUse).run functions.2
  have keeps : KeepsNames uses.2 later := keeps
  have fromFunctions : KeepsNames functions.2 later :=
    .trans (.of_linked (Appends.mapM linkUse_appends _ _)) keeps
  have fromFields : KeepsNames fields.2 later :=
    .trans (.of_linked (Appends.mapM (linkFunction_appends _) _ _)) fromFunctions
  have fromBase : KeepsNames base.2 later :=
    .trans (.of_linked (Appends.mapM (linkField_appends _) _ _)) fromFields
  have spelledBase : base.1.map (fun reference => (later.get reference).name) = spec.base :=
    linkBase_spells spec.base refs later fromBase
  have spelledFields : fields.1.map (FieldDecl.spelled later) =
      spec.fields.map fun field => { field with owner := some owner } :=
    Spells.mapM (linkField_appends owner) (linkField_spells owner) spec.fields base.2 later fromFields
  have spelledFunctions : functions.1.map (FunctionDecl.spelled later) =
      spec.completeFunctions.map fun function => { function with owner := some owner } :=
    Spells.mapM (linkFunction_appends (some owner)) (linkFunction_spells (some owner))
      spec.completeFunctions fields.2 later fromFunctions
  have spelledUses : uses.1.map (AnnotationUse.spelled later) = spec.annotations :=
    linkUses_spells spec.annotations functions.2 later keeps
  show ClassSpec.mk spec.name spec.mode (base.1.map _) (fields.1.map (FieldDecl.spelled later))
    (functions.1.map (FunctionDecl.spelled later)) (uses.1.map (AnnotationUse.spelled later))
    spec.described spec.descriptor = _
  rw [spelledBase, spelledFields, spelledFunctions, spelledUses]
  rfl

end World

end ScriptObjects
